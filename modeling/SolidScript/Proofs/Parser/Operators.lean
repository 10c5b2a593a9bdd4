import SolidScript.Proofs.Parser.Progress
import SolidScript.Proofs.Printer.Reread
import SolidScript.Proofs.Printer.Spelling

namespace SolidScript

namespace Parser

open Token (Word sign)

variable {α β : Type}

namespace Unbounded

section operators

variable {bound : Precedence} {left : Expr} {s : State} {ws : List Word}

theorem operators_within (h : Behind ws s) (hw : (Precedence.ofKind (firstKind ws)).rank ≤ bound.rank) :
    operators bound left s = .done left s := by
  rw [operators_eq, following_bind, h.kind, if_neg (by omega)]
  rfl

theorem operators_stop (h : Behind ws s) (hs : Stops ws) : operators bound left s = .done left s :=
  operators_within h (by rw [beq_iff_eq.1 hs.1]; exact Nat.zero_le _)

theorem operators_body (h : left.hasBody) : operators bound left s = .done left s := by
  rw [operators_eq, following_bind]
  simp [h]

theorem operators_extend (hb : left.hasBody = false) (h : bound.rank < (Precedence.ofKind s.following.kind).rank) :
    operators bound left s = (extend s.following left >>= operators bound) s.advanced := by
  rw [operators_eq, following_bind]
  simp [h, hb]

theorem operators_call (hb : left.hasBody = false) (hr : bound.rank ≤ Precedence.unary.rank)
    (h : Behind (sign .lparen :: ws) s) :
    operators bound left s = (items .rparen >>= fun args => operators bound (.call left args)) s.advanced := by
  have hk : s.following.kind = .lparen := h.kind
  rw [operators_extend hb, extend_call hk, bind_assoc]
  · rfl
  · rw [hk]
    exact Nat.lt_of_le_of_lt hr (by decide)

theorem operators_index (hb : left.hasBody = false) (hr : bound.rank ≤ Precedence.unary.rank)
    (h : Behind (sign .lbracket :: ws) s) :
    operators bound left s = (do
      let key ← expression .lowest
      expect .rbracket
      operators bound (.index left key)) s.advanced.advanced := by
  have hk : s.following.kind = .lbracket := h.kind
  rw [operators_extend hb, extend_index hk]
  · simp only [bind_assoc, advance_bind, pure_bind]
  · rw [hk]
    exact Nat.lt_of_le_of_lt hr (by decide)

theorem operators_binary {op : BinaryOp} (hb : left.hasBody = false)
    (hr : bound.rank < (Precedence.ofKind op.kind).rank) (h : Behind (sign op.kind :: ws) s) :
    operators bound left s = (do
      let right ← expression (.ofKind op.kind)
      operators bound (.binary left op right)) s.advanced.advanced := by
  have hk : s.following.kind = op.kind := h.kind
  have ho : BinaryOp.ofKind? s.following.kind = some op := by
    rw [hk]
    cases op <;> rfl
  rw [operators_extend hb (hk ▸ hr), extend_binary ho, hk]
  simp only [bind_assoc, advance_bind, pure_bind]

theorem operators_named {name : String} (h : Behind (sign .assign :: ws) s) :
    operators .lowest (.ident name) s = (do
      let value ← expression .lowest
      operators .lowest (.named name value)) s.advanced.advanced := by
  have hk : s.following.kind = .assign := h.kind
  rw [operators_extend rfl, extend_named hk]
  · simp only [bind_assoc, advance_bind, pure_bind]
  · rw [hk]
    decide

-- Only a name can stand in front of an equals sign.
theorem operators_unnamed (hb : left.hasBody = false) (hl : ∀ name, left ≠ .ident name)
    (h : Behind (sign .assign :: ws) s) : Spoiled (operators .lowest left s) := by
  have hk : s.following.kind = .assign := h.kind
  rw [operators_extend hb, extend_unnamed hk hl]
  · nofun
  · rw [hk]
    decide

end operators

-- What is left to do behind `left`, the value of the last of `names`.
noncomputable def resume : List String → Precedence → Expr → Parser Expr
  | [], bound, left => operators bound left
  | name :: names, bound, left => do
    let value ← resume names .lowest left
    operators bound (.named name value)

section resume

variable {names : List String} {bound : Precedence} {left : Expr} {s : State} {ws : List Word}

theorem resume_stop (h : Behind ws s) (hs : Stops ws) :
    resume names bound left s = .done (Expr.close names left) s := by
  induction names generalizing bound with
  | nil => exact operators_stop h hs
  | cons name names ih =>
    rw [resume, bind_apply, ih]
    exact operators_stop h hs

-- One operator behind all the names, which the innermost value takes.
theorem resume_step {x : Parser α} {f : α → Expr} {t : State}
    (h : ∀ b, b = bound ∨ b = .lowest → operators b left s = (x >>= fun a => operators b (f a)) t) :
    resume names bound left s = (x >>= fun a => resume names bound (f a)) t := by
  induction names generalizing bound with
  | nil => exact h bound (.inl rfl)
  | cons name names ih =>
    have hi : resume names .lowest left s = _ := ih fun b hb => h b (.inr (hb.elim id id))
    simp only [resume]
    rw [bind_apply, hi, ← bind_apply, bind_assoc]

theorem resume_spoiled (h : ∀ b, b = bound ∨ b = .lowest → Spoiled (operators b left s)) :
    Spoiled (resume names bound left s) := by
  induction names generalizing bound with
  | nil => exact h bound (.inl rfl)
  | cons name names ih => exact (ih fun b hb => h b (.inr (hb.elim id id))).bind _

end resume

instance (names : List String) (bound : Precedence) (left : Expr) : Keeps (resume names bound left) := by
  induction names generalizing bound with
  | nil => exact inferInstanceAs (Keeps (operators bound left))
  | cons name names ih => exact inferInstanceAs (Keeps (resume names .lowest left >>= _))

end Unbounded

end Parser

end SolidScript
