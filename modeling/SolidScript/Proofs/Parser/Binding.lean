import SolidScript.Proofs.Parser.Reading
import SolidScript.Proofs.Printer.Minimal

namespace SolidScript

theorem BinaryOp.rank_kind (op : BinaryOp) : (Precedence.ofKind op.kind).rank = op.level := by
  cases op <;> rfl

theorem BinaryOp.level_lt (op : BinaryOp) : op.level < unaryLevel := by
  cases op <;> decide

namespace Expr

theorem level_pos (e : Expr) : 0 < e.level := by
  cases e with
  | binary left op right => cases op <;> exact Nat.succ_pos _
  | _ => exact Nat.succ_pos _

theorem hasBody_of_isFormula {e : Expr} (h : e.isFormula) : e.hasBody = false := by
  cases e <;> first | rfl | simp [isFormula] at h

end Expr

namespace Parser

open Token (Word sign)

namespace Unbounded

-- What reading a formula comes to for every bound that lets its operator through, in front of whatever leaves its last
-- operand alone.
def ReadsTight (level : Nat) (spelling : List Word → List Word) (e : Expr) : Prop :=
  ∀ (bound : Precedence) ⦃s : State⦄ (rest : List Word), bound.rank ≤ unaryLevel →
    (level < unaryLevel → bound.rank < level) →
    (level < closedLevel → (Precedence.ofKind (firstKind rest)).rank ≤ level) → At (spelling rest) s →
    Goes True (Behind rest) (operators bound e) (expression bound s)

section

variable {e : Expr}

theorem ReadsTight.whole {level : Nat} {spelling : List Word → List Word} (h : ReadsTight level spelling e)
    (hl : 0 < level) : ReadsWhole True spelling e := by
  intro s rest hs ha
  have hrest : (Precedence.ofKind (firstKind rest)).rank = 0 := by
    rw [beq_iff_eq.1 hs.1]
    rfl
  have he := h .lowest rest (Nat.zero_le _) (fun _ => hl) (fun _ => by omega) ha
  refine he.onward fun t ht => ?_
  rw [operators_stop ht hs]
  exact .of_eq ht rfl

-- In parentheses a formula is read like a name.
theorem ReadsTight.enclosed (h : ReadsTight e.level e.spellMinimal e) (needed : Nat) :
    ReadsTight (max e.level needed) (spellEnclosed e.level needed e.spellMinimal) e := by
  intro bound s rest hb hlevel hrest ha
  unfold spellEnclosed at ha
  split at ha
  · exact expression_paren ha (h.whole e.level_pos _ ⟨rfl, rfl⟩ ha.behind)
  · rename_i hneeded
    rw [max_eq_left (not_lt.1 hneeded)] at hlevel hrest
    exact h bound rest hb hlevel hrest ha

theorem ReadsTight.unary {right : Expr} {level : Nat} {spelling : List Word → List Word}
    (h : ReadsTight level spelling right) (hl : unaryLevel ≤ level) (op : UnaryOp) :
    ReadsTight unaryLevel (fun rest => sign op.kind :: spelling rest) (.unary op right) := by
  intro bound s rest _ _ hrest ha
  have hbehind : (Precedence.ofKind (firstKind rest)).rank ≤ Precedence.unary.rank := hrest (by decide)
  rw [expression_eq, bind_apply, operand_unary ha, ← bind_apply, bind_assoc]
  have hr := h .unary rest le_rfl (fun hlt => absurd hlt (by omega)) (fun _ => hbehind.trans hl) ha.behind
  refine (hr.bind _).onward fun t ht => ?_
  rw [bind_apply, operators_within ht hbehind]
  exact .of_eq ht rfl

-- The operator behind the left operand is let through by the bound, and the one behind the right operand is not let
-- through by the operator.
theorem ReadsTight.binary {left right : Expr} {op : BinaryOp} {level level' : Nat}
    {spelling spelling' : List Word → List Word} (h : ReadsTight level spelling left) (hl : op.level ≤ level)
    (h' : ReadsTight level' spelling' right) (hl' : op.level < level') (hbody : left.hasBody = false) :
    ReadsTight op.level (fun rest => spelling (sign op.kind :: spelling' rest)) (.binary left op right) := by
  intro bound s rest hb hlevel hrest ha
  have hop := op.level_lt
  have hrank := op.rank_kind
  have hbound : bound.rank < op.level := hlevel hop
  have hbehind : (Precedence.ofKind (firstKind rest)).rank ≤ op.level := hrest (hop.trans (by decide))
  have hleft := h bound (sign op.kind :: spelling' rest) hb (fun _ => hbound.trans_le hl)
    (fun _ => hrank.trans_le hl) ha
  refine hleft.onward fun t ht => ?_
  rw [operators_binary hbody (hbound.trans_eq hrank.symm) ht]
  have hright := h' (.ofKind op.kind) rest (hrank.trans_le hop.le) (fun _ => hrank.trans_lt hl')
    (fun _ => hbehind.trans hl'.le) ht.behind
  refine (hright.bind _).onward fun u hu => ?_
  rw [bind_apply, operators_within hu (hbehind.trans_eq hrank.symm)]
  exact .of_eq hu rfl

theorem ReadsTight.call {callee : Expr} {args : List Expr} {level : Nat} {spelling : List Word → List Word}
    (h : ReadsTight level spelling callee) (hl : closedLevel ≤ level) (hbody : callee.hasBody = false)
    (hs : ∀ a ∈ args, ∀ rest, leads (firstKind (a.spellMinimal rest)))
    (h' : ∀ a ∈ args, ReadsWhole True a.spellMinimal a) :
    ReadsTight closedLevel
      (fun rest => spelling (sign .lparen :: Expr.spellMinimalItems args (sign .rparen :: rest)))
      (.call callee args) := by
  intro bound s rest hb _ _ ha
  have hcallee := h bound _ hb (fun hlt => absurd (hl.trans_lt hlt) (by decide)) (fun hlt => absurd hlt (by omega)) ha
  refine hcallee.onward fun t ht => ?_
  rw [operators_call hbody hb ht]
  have hargs := reads_items Expr.listed_minimalItems .rparen ⟨rfl, rfl⟩ nofun rfl hs h' ht.behind
  rw [List.map_id'] at hargs
  refine (hargs.bind _).congr ?_
  simp

theorem ReadsTight.index {left key : Expr} {level : Nat} {spelling spelling' : List Word → List Word}
    (h : ReadsTight level spelling left) (hl : closedLevel ≤ level) (hbody : left.hasBody = false)
    (h' : ReadsWhole True spelling' key) :
    ReadsTight closedLevel (fun rest => spelling (sign .lbracket :: spelling' (sign .rbracket :: rest)))
      (.index left key) := by
  intro bound s rest hb _ _ ha
  have hleft := h bound _ hb (fun hlt => absurd (hl.trans_lt hlt) (by decide)) (fun hlt => absurd hlt (by omega)) ha
  refine hleft.onward fun t ht => ?_
  rw [operators_index hbody hb ht]
  have hkey := h' (sign .rbracket :: rest) ⟨rfl, rfl⟩ ht.behind
  refine hkey.read fun u hu => ?_
  rw [expect_sign hu]
  exact .of_eq hu.behind rfl

theorem readsTight_word {w : Word} (hw : ∀ rest s, At (w :: rest) s → operand s = .done e s) :
    ReadsTight closedLevel (w :: ·) e := by
  intro bound s rest _ _ _ ha
  rw [expression_eq, bind_apply, hw rest s ha]
  exact .of_eq ha.behind rfl

end

theorem leads_spellEnclosed {spelling : List Word → List Word} (h : ∀ rest, leads (firstKind (spelling rest)))
    (level needed : Nat) (rest : List Word) : leads (firstKind (spellEnclosed level needed spelling rest)) := by
  unfold spellEnclosed
  split
  · rfl
  · exact h rest

theorem leads_spellMinimal {e : Expr} (h : e.everywhere Expr.isFormula) (rest : List Word) :
    leads (firstKind (e.spellMinimal rest)) := by
  induction e using Expr.induction_children generalizing rest with
  | step e ih =>
    obtain ⟨he, hc⟩ := Expr.everywhere_iff.1 h
    replace ih (c : Expr) (hm : c ∈ e.children) (rest : List Word) := ih c hm (hc c hm) rest
    cases e with
    | ident name | int value => rfl
    | unary op right => cases op <;> rfl
    | binary left op right => exact leads_spellEnclosed (ih left (by simp [Expr.children])) _ _ _
    | call callee args => exact leads_spellEnclosed (ih callee (by simp [Expr.children])) _ _ _
    | index left key => exact leads_spellEnclosed (ih left (by simp [Expr.children])) _ _ _
    | _ => simp [Expr.isFormula] at he

-- Every operand is read to its end and no further.
theorem readsTight (e : Expr) (h : e.everywhere Expr.isFormula) : ReadsTight e.level e.spellMinimal e := by
  induction e using Expr.induction_children with
  | step e ih =>
    obtain ⟨he, hc⟩ := Expr.everywhere_iff.1 h
    replace ih (c : Expr) (hm : c ∈ e.children) : ReadsTight c.level c.spellMinimal c := ih c hm (hc c hm)
    have body (c : Expr) (hm : c ∈ e.children) : c.hasBody = false :=
      Expr.hasBody_of_isFormula (Expr.everywhere_iff.1 (hc c hm)).1
    cases e with
    | ident name => exact readsTight_word fun _ _ => operand_ident
    | int value => exact readsTight_word fun _ _ => operand_int (by simpa [Expr.isFormula] using he)
    | unary op right =>
      have hr := (ih right (by simp [Expr.children])).enclosed unaryLevel
      exact hr.unary (le_max_right _ _) op
    | binary left op right =>
      have hl := (ih left (by simp [Expr.children])).enclosed op.level
      have hr := (ih right (by simp [Expr.children])).enclosed (op.level + 1)
      exact hl.binary (le_max_right _ _) hr (Nat.lt_of_succ_le (le_max_right _ _)) (body left (by simp [Expr.children]))
    | call callee args =>
      have hf := (ih callee (by simp [Expr.children])).enclosed closedLevel
      refine hf.call (le_max_right _ _) (body callee (by simp [Expr.children])) (fun a hm => ?_) fun a hm => ?_
      · exact leads_spellMinimal (hc a (by simp [Expr.children, hm]))
      · exact (ih a (by simp [Expr.children, hm])).whole a.level_pos
    | index left key =>
      have hl := (ih left (by simp [Expr.children])).enclosed closedLevel
      exact hl.index (le_max_right _ _) (body left (by simp [Expr.children]))
        ((ih key (by simp [Expr.children])).whole key.level_pos)
    | _ => simp [Expr.isFormula] at he

-- A program of one expression.
theorem statements_single {e : Expr} {spelling : List Word → List Word} {s : State} (h : ReadsWhole True spelling e)
    (hl : leads (firstKind (spelling []))) (ha : At (spelling []) s) :
    ∃ t, At [] t ∧ statements .eof s = .done [.expr e] t := by
  obtain ⟨t, ht, he⟩ := (h [] ⟨rfl, rfl⟩ ha).1 trivial
  rw [← ha.kind] at hl
  have hs : statement s = .done (.expr e) t := by
    rw [statement_expr hl, bind_apply, he]
    exact finish_other ht nofun
  have hstart : ¬ (s.current.kind = .eof ∨ s.current.kind = .eof) := by
    rw [or_self]
    intro hk
    simp [hk, leads] at hl
  have hend : statements .eof t.advanced = .done [] t.advanced := by
    rw [statements_eq, current_bind, if_pos (.inr ht.kind)]
    rfl
  refine ⟨t.advanced, ht, ?_⟩
  rw [statements_eq, current_bind, if_neg hstart, bind_apply, attempt, hs]
  dsimp only
  rw [advance_bind, bind_apply, hend]
  rfl

end Unbounded

end Parser

namespace Expr

open SolidScript.Parser SolidScript.Parser.Unbounded

-- The levels are those that the parser goes by, and it takes operators of one level from the left.
theorem parse_minimal (e : Expr) (h : e.everywhere isFormula) : parse e.minimal = ⟨[.expr e], []⟩ := by
  have ha := at_ofTokens e.minimal
  have hwords := (spelledAs_minimal e h).words [] Token.apart_nil
  rw [List.append_nil, Token.words_nil] at hwords
  rw [hwords] at ha
  obtain ⟨t, ht, hs⟩ := statements_single ((readsTight e h).whole e.level_pos) (leads_spellMinimal h []) ha
  rw [parse_eq, hs]
  simp [ht.errors]

theorem parse_minimal_chain :
    let product : Expr := .binary (.binary (.ident "b") .subtract (.ident "c")) .multiply
      (.unary .negate (.index (.call (.ident "f") [.binary (.ident "x") .add (.int 1), .ident "y"])
        (.call (.unary .negate (.ident "z")) [.int 2])))
    let e : Expr := .binary (.binary (.binary (.ident "a") .subtract product) .subtract
      (.binary (.int 3) .divide (.int 4))) .lessThan (.unary .not (.binary (.ident "p") .equal (.ident "q")))
    e.minimal = "a - (b - c) * -f(x + 1, y)[(-z)(2)] - 3 / 4 < !(p == q)" ∧
      parse "a - (b - c) * -f(x + 1, y)[(-z)(2)] - 3 / 4 < !(p == q)" = ⟨[.expr e], []⟩ := by
  intro product e
  have htext : e.minimal = "a - (b - c) * -f(x + 1, y)[(-z)(2)] - 3 / 4 < !(p == q)" := by decide +kernel
  exact ⟨htext, htext ▸ parse_minimal e (by decide +kernel)⟩

end Expr

end SolidScript
