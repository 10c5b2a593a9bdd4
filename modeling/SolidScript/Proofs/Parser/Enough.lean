import SolidScript.Proofs.Parser.Steps

namespace SolidScript.Parser

variable {α β : Type}

instance : LawfulMonad Parser :=
  LawfulMonad.mk' Parser
    (fun x => by
      funext s
      show (match x s with | .done value s => _ | .failed error s => _ | .exhausted => _) = x s
      cases x s <;> rfl)
    (fun _ _ => rfl)
    (fun x f g => by
      funext s
      simp only [bind_apply]
      cases x s <;> rfl)

-- No parser goes back, loses an error or forgets the end of the text.
structure Later (s t : State) : Prop where
  eof : t.eof = s.eof
  tokens : t.tokens <:+ s.tokens
  errors : s.errors <+: t.errors

namespace Later

theorem refl (s : State) : Later s s := ⟨rfl, List.suffix_refl _, List.prefix_refl _⟩

theorem trans {s t u : State} (h : Later s t) (k : Later t u) : Later s u :=
  ⟨k.eof.trans h.eof, k.tokens.trans h.tokens, h.errors.trans k.errors⟩

theorem length_le {s t : State} (h : Later s t) : t.tokens.length ≤ s.tokens.length := h.tokens.length_le

theorem errors_eq_nil {s t : State} (h : Later s t) (ht : t.errors = []) : s.errors = [] := by
  have := h.errors
  rwa [ht, List.prefix_nil] at this

theorem advanced (s : State) : Later s s.advanced := ⟨rfl, List.tail_suffix _, List.prefix_refl _⟩

end Later

def Outcome.LaterThan (s : State) : Outcome α → Prop
  | done _ t => Later s t
  | failed _ t => Later s t
  | exhausted => True

theorem skipStatement_suffix (tokens : List Token) : skipStatement tokens <:+ tokens := by
  fun_induction skipStatement tokens with
  | case1 => exact List.suffix_refl _
  | case2 => exact List.suffix_refl _
  | case3 => exact List.suffix_refl _
  | case4 token next rest _ ih => exact ih.trans (List.suffix_cons _ _)

theorem Outcome.LaterThan.of_later {s t : State} {o : Outcome α} (h : Later s t) (k : o.LaterThan t) :
    o.LaterThan s := by
  cases o with
  | done a u => exact Later.trans h k
  | failed e u => exact Later.trans h k
  | exhausted => trivial

theorem laterThan_bind {x : Parser α} {f : α → Parser β} (hx : ∀ s, (x s).LaterThan s)
    (hf : ∀ a s, (f a s).LaterThan s) (s : State) : ((x >>= f) s).LaterThan s := by
  have h := hx s
  rw [bind_apply]
  cases hs : x s with
  | done a t =>
    rw [hs] at h
    exact .of_later h (hf a t)
  | failed e t =>
    rw [hs] at h
    exact h
  | exhausted => trivial

theorem laterThan_attempt {x : Parser α} (hx : ∀ s, (x s).LaterThan s) (s : State) :
    (attempt x s).LaterThan s := by
  have h := hx s
  unfold attempt
  cases hs : x s with
  | done a t => rw [hs] at h; exact h
  | failed e t => rw [hs] at h; exact h
  | exhausted => trivial

theorem later_congruence : Congruence fun _ x _ => ∀ s, (x s).LaterThan s where
  outOfSteps _ _ := trivial
  pure _ s := Later.refl s
  current s := Later.refl s
  following s := Later.refl s
  advance s := Later.advanced s
  fail _ _ s := Later.refl s
  report _ _ := ⟨rfl, List.suffix_refl _, List.prefix_append _ _⟩
  synchronize _ := ⟨rfl, skipStatement_suffix _, List.prefix_refl _⟩
  attempt := laterThan_attempt
  bind hx hf := laterThan_bind hx hf

theorem length_of_current {s : State} (h : s.eof.kind = .eof) (hs : s.current.kind ≠ .eof) :
    1 ≤ s.tokens.length := by
  cases ht : s.tokens with
  | nil => exact absurd (by simp [State.current, ht, h]) hs
  | cons token rest => simp

theorem tokens_of_current_eof {s : State} (h : ∀ token ∈ s.tokens, token.kind ≠ .eof)
    (hs : s.current.kind = .eof) : s.tokens = [] := by
  cases ht : s.tokens with
  | nil => rfl
  | cons token rest => exact absurd (by simpa [State.current, ht] using hs) (h token (by simp [ht]))

theorem length_of_following {s : State} (h : s.eof.kind = .eof) (hs : s.following.kind ≠ .eof) :
    2 ≤ s.tokens.length := by
  match ht : s.tokens with
  | [] => exact absurd (by simp [State.following, ht, h]) hs
  | [token] => exact absurd (by simp [State.following, ht, h]) hs
  | token :: next :: rest => simp

@[simp] theorem length_advanced (s : State) : s.advanced.tokens.length = s.tokens.length - 1 := by
  simp [State.advanced]

-- The outcome is settled, and what it takes to say so about what comes behind.
theorem ends_bind {x : Parser α} {f : α → Parser β} {s : State} (hl : (x s).LaterThan s) (hx : x s ≠ .exhausted)
    (hf : ∀ a t, Later s t → f a t ≠ .exhausted) : (x >>= f) s ≠ .exhausted := by
  rw [bind_apply]
  cases hs : x s with
  | done a t => rw [hs] at hl; exact hf a t hl
  | failed e t => nofun
  | exhausted => exact absurd hs hx

-- Nothing is read behind `x`.
theorem ends_built {x : Parser α} {f : α → β} {s : State} (hx : x s ≠ .exhausted) :
    (do return f (← x) : Parser β) s ≠ .exhausted := by
  rw [bind_apply]
  cases hs : x s with
  | done a t => nofun
  | failed e t => nofun
  | exhausted => exact absurd hs hx

theorem ends_pure {a : α} {s : State} : (Pure.pure a : Parser α) s ≠ .exhausted := nofun

theorem ends_fail {cause : ParseError.Cause} {position : Position} {s : State} :
    (fail cause position : Parser α) s ≠ .exhausted := nofun

theorem ends_report {error : ParseError} {s : State} : report error s ≠ .exhausted := nofun

theorem ends_synchronize {s : State} : synchronize s ≠ .exhausted := nofun

theorem ends_advance {f : Unit → Parser β} {s : State} (hf : f () s.advanced ≠ .exhausted) :
    (advance >>= f) s ≠ .exhausted := hf

theorem ends_expect {kind : Token.Kind} {f : Unit → Parser β} {s : State}
    (hf : s.following.kind = kind → f () s.advanced ≠ .exhausted) : (expect kind >>= f) s ≠ .exhausted := by
  by_cases h : s.following.kind = kind
  · rw [expect_bind h]
    exact hf h
  · simp [bind_apply, expect, following, h]

theorem later (n : Nat) : Related (fun _ x _ => ∀ s, (x s).LaterThan s) n := later_congruence.related n

-- How many steps are enough. Between two reads of the same token at most five functions are entered, and every other
-- call has at least one token less. Some functions advance before anything else, which at the end of the text leaves
-- them as many tokens as they had.
structure Enough (n : Nat) : Prop where
  moreParams : ∀ s, s.eof.kind = .eof → 8 * s.tokens.length + 1 ≤ n → moreParams n s ≠ .exhausted
  expression : ∀ limit s, s.eof.kind = .eof → 8 * s.tokens.length + 3 ≤ n → expression n limit s ≠ .exhausted
  operand : ∀ s, s.eof.kind = .eof → 8 * s.tokens.length + 2 ≤ n → operand n s ≠ .exhausted
  operators : ∀ limit left s, s.eof.kind = .eof → 8 * s.tokens.length + 1 ≤ n → operators n limit left s ≠ .exhausted
  extend : ∀ token left s, s.eof.kind = .eof → 8 * (s.tokens.length - 1) + 10 ≤ n → extend n token left s ≠ .exhausted
  conditional : ∀ s, s.eof.kind = .eof → 8 * s.tokens.length + 1 ≤ n → conditional n s ≠ .exhausted
  primitive : ∀ kind word s, s.eof.kind = .eof → 8 * s.tokens.length + 1 ≤ n → primitive n kind word s ≠ .exhausted
  items : ∀ close s, s.eof.kind = .eof → 8 * (s.tokens.length - 1) + 9 ≤ n → items n close s ≠ .exhausted
  moreItems : ∀ close s, s.eof.kind = .eof → 8 * s.tokens.length + 1 ≤ n → moreItems n close s ≠ .exhausted
  pairs : ∀ s, s.eof.kind = .eof → 8 * (s.tokens.length - 1) + 9 ≤ n → pairs n s ≠ .exhausted
  statements : ∀ close s, s.eof.kind = .eof → 8 * s.tokens.length + 5 ≤ n → statements n close s ≠ .exhausted
  statement : ∀ s, s.eof.kind = .eof → 8 * s.tokens.length + 4 ≤ n → statement n s ≠ .exhausted
  block : ∀ s, s.eof.kind = .eof → 8 * (s.tokens.length - 1) + 9 ≤ n → block n s ≠ .exhausted

namespace Enough

variable {n : Nat} {s : State}

theorem of_following (h : s.eof.kind = .eof) {kind : Token.Kind} (hs : s.following.kind = kind) (hk : kind ≠ .eof) :
    2 ≤ s.tokens.length :=
  length_of_following h (hs ▸ hk)

theorem succ_moreParams (e : Enough n) (h : s.eof.kind = .eof) (hn : 8 * s.tokens.length + 1 ≤ n + 1) :
    Parser.moreParams (n + 1) s ≠ .exhausted := by
  rw [Parser.moreParams]
  simp only [following_bind, ite_apply']
  split
  · rename_i hs
    have hl := of_following h hs (by decide)
    apply ends_advance
    apply ends_expect
    intro _
    simp only [current_bind]
    apply ends_built
    apply e.moreParams s.advanced.advanced h
    simp only [length_advanced]
    omega
  · apply ends_expect
    intro _
    exact ends_pure

theorem params (e : Enough n) (h : s.eof.kind = .eof) (hn : 8 * s.tokens.length + 1 ≤ n) :
    Parser.params n s ≠ .exhausted := by
  unfold Parser.params
  simp only [following_bind, ite_apply']
  split
  · exact ends_pure
  · apply ends_expect
    intro hs
    have hl := of_following h hs (by decide)
    simp only [current_bind]
    apply ends_built
    apply e.moreParams s.advanced h
    simp only [length_advanced]
    omega

theorem succ_expression (e : Enough n) (limit : Precedence) (h : s.eof.kind = .eof)
    (hn : 8 * s.tokens.length + 3 ≤ n + 1) : Parser.expression (n + 1) limit s ≠ .exhausted := by
  rw [Parser.expression]
  apply ends_bind ((later n).operand s) (e.operand s h (by omega))
  intro left t ht
  have hl := ht.length_le
  exact e.operators limit left t (ht.eof ▸ h) (by omega)

theorem succ_operators (e : Enough n) (limit : Precedence) (left : Expr) (h : s.eof.kind = .eof)
    (hn : 8 * s.tokens.length + 1 ≤ n + 1) : Parser.operators (n + 1) limit left s ≠ .exhausted := by
  rw [Parser.operators]
  simp only [following_bind, ite_apply']
  split
  · rename_i hs
    -- an operator is not the end of the text
    have hk : s.following.kind ≠ .eof := by
      intro hk
      simp [hk, Precedence.ofKind, Precedence.rank] at hs
    have hl := length_of_following h hk
    have hextend : Parser.extend n s.following left s.advanced ≠ .exhausted := by
      apply e.extend s.following left s.advanced h
      simp only [length_advanced]
      omega
    apply ends_advance
    apply ends_bind ((later n).extend s.following left s.advanced) hextend
    intro longer t ht
    have hlt := ht.length_le
    simp only [length_advanced] at hlt
    exact e.operators limit longer t (ht.eof ▸ h) (by omega)
  · exact ends_pure

theorem succ_operand (e : Enough n) (h : s.eof.kind = .eof) (hn : 8 * s.tokens.length + 2 ≤ n + 1) :
    Parser.operand (n + 1) s ≠ .exhausted := by
  rw [Parser.operand]
  simp only [current_bind]
  have inner (limit : Precedence) (hc : s.current.kind ≠ .eof) : Parser.expression n limit s.advanced ≠ .exhausted := by
    have hl := length_of_current h hc
    exact e.expression _ _ h (by simp only [length_advanced]; omega)
  cases hk : s.current.kind with
  | int =>
    unfold intLiteral
    split
    · exact ends_pure
    · exact ends_fail
  | float =>
    unfold floatLiteral
    split
    · exact ends_pure
    · exact ends_fail
  | bang =>
    apply ends_advance
    exact ends_built (inner .unary (by simp [hk]))
  | minus =>
    apply ends_advance
    exact ends_built (inner .unary (by simp [hk]))
  | lparen =>
    apply ends_advance
    apply ends_bind ((later n).expression .lowest _) (inner .lowest (by simp [hk]))
    intro value t _
    apply ends_expect
    intro _
    exact ends_pure
  | ifWord => exact e.conditional s h (by omega)
  | functionWord =>
    apply ends_expect
    intro hs
    have hl := of_following h hs (by decide)
    have hp : 8 * s.advanced.tokens.length + 1 ≤ n := by simp only [length_advanced]; omega
    apply ends_bind (later_congruence.params n _) (e.params (s := s.advanced) h hp)
    intro names t ht
    have ht' : t.eof.kind = .eof := ht.eof ▸ h
    have hlt := ht.length_le
    simp only [length_advanced] at hlt
    apply ends_expect
    intro hs'
    have hl' := of_following ht' hs' (by decide)
    apply ends_built
    apply e.block t.advanced ht'
    simp only [length_advanced]
    omega
  | lbracket =>
    have hl := length_of_current h (by simp [hk])
    exact ends_built (e.items _ s h (by omega))
  | lbrace =>
    have hl := length_of_current h (by simp [hk])
    exact ends_built (e.pairs s h (by omega))
  | primitive kind => exact e.primitive _ _ _ h (by omega)
  | ident | string | trueWord | falseWord | undefWord => exact ends_pure
  | _ => exact ends_fail

theorem succ_extend (e : Enough n) (token : Token) (left : Expr) (h : s.eof.kind = .eof)
    (hn : 8 * (s.tokens.length - 1) + 10 ≤ n + 1) : Parser.extend (n + 1) token left s ≠ .exhausted := by
  have inner (limit : Precedence) : Parser.expression n limit s.advanced ≠ .exhausted :=
    e.expression _ _ h (by simp only [length_advanced]; omega)
  generalize hx : Parser.extend (n + 1) token left = x
  unfold Parser.extend at hx
  split at hx
  · rw [← hx]
    exact ends_built (e.items _ s h (by omega))
  · rw [← hx]
    apply ends_advance
    apply ends_bind ((later n).expression .lowest _) (inner .lowest)
    intro key t _
    apply ends_expect
    intro _
    exact ends_pure
  · split at hx
    · rw [← hx]
      apply ends_advance
      exact ends_built (inner _)
    · rw [← hx]
      exact ends_fail
  · split at hx
    · rw [← hx]
      apply ends_advance
      exact ends_built (inner _)
    · rw [← hx]
      exact ends_fail

theorem succ_conditional (e : Enough n) (h : s.eof.kind = .eof) (hn : 8 * s.tokens.length + 1 ≤ n + 1) :
    Parser.conditional (n + 1) s ≠ .exhausted := by
  rw [Parser.conditional]
  apply ends_expect
  intro hs
  have hl := of_following h hs (by decide)
  have hcondition : Parser.expression n .lowest s.advanced.advanced ≠ .exhausted := by
    apply e.expression .lowest s.advanced.advanced h
    simp only [length_advanced]
    omega
  apply ends_advance
  apply ends_bind ((later n).expression .lowest _) hcondition
  intro condition t ht
  have ht' : t.eof.kind = .eof := ht.eof ▸ h
  have hlt := ht.length_le
  apply ends_expect
  intro hs'
  have hl' := of_following ht' hs' (by decide)
  apply ends_expect
  intro hs''
  have hl'' := of_following (s := t.advanced) ht' hs'' (by decide)
  simp only [length_advanced] at hlt hl''
  have hconsequence : Parser.block n t.advanced.advanced ≠ .exhausted := by
    apply e.block t.advanced.advanced ht'
    simp only [length_advanced]
    omega
  apply ends_bind ((later n).block _) hconsequence
  intro consequence u hu
  have hu' : u.eof.kind = .eof := hu.eof ▸ ht'
  have hlu := hu.length_le
  simp only [following_bind, ite_apply']
  split
  · apply ends_advance
    apply ends_expect
    intro hs3
    have hl3 := of_following (s := u.advanced) hu' hs3 (by decide)
    simp only [length_advanced] at hlu hl3
    apply ends_built
    apply e.block u.advanced.advanced hu'
    simp only [length_advanced]
    omega
  · exact ends_pure

theorem succ_primitive (e : Enough n) (kind : Primitive) (word : String) (h : s.eof.kind = .eof)
    (hn : 8 * s.tokens.length + 1 ≤ n + 1) : Parser.primitive (n + 1) kind word s ≠ .exhausted := by
  have list {t : State} (ht : Later s t) (hs : t.following.kind = .lparen) :
      Parser.items n .rparen t.advanced ≠ .exhausted := by
    have ht' : t.eof.kind = .eof := ht.eof ▸ h
    have hl := ht.length_le
    have hl' := of_following ht' hs (by decide)
    apply e.items .rparen t.advanced ht'
    simp only [length_advanced]
    omega
  rw [Parser.primitive]
  simp only [following_bind, ite_apply']
  split
  · exact ends_pure
  split
  · have tail (args : List Expr) {t : State} (ht : Later s t) : (do
        if (← following).kind = .lbrace then
          advance
          return Expr.primitive kind args (some (← Parser.block n))
        else return .primitive kind args none : Parser Expr) t ≠ .exhausted := by
      simp only [following_bind, ite_apply']
      split
      · rename_i hs
        have ht' : t.eof.kind = .eof := ht.eof ▸ h
        have hl := ht.length_le
        have hl' := of_following ht' hs (by decide)
        apply ends_advance
        apply ends_built
        apply e.block t.advanced ht'
        simp only [length_advanced]
        omega
      · exact ends_pure
    simp only [bind_assoc, following_bind]
    split
    · rename_i hs
      simp only [bind_assoc]
      apply ends_advance
      apply ends_bind ((later n).items .rparen _) (list (.refl s) hs)
      intro args t ht
      exact tail args ((Later.advanced s).trans ht)
    · exact tail [] (.refl s)
  · apply ends_expect
    intro hs
    exact ends_built (list (.refl s) hs)

theorem succ_items (e : Enough n) (close : Token.Kind) (h : s.eof.kind = .eof)
    (hn : 8 * (s.tokens.length - 1) + 9 ≤ n + 1) : Parser.items (n + 1) close s ≠ .exhausted := by
  rw [Parser.items]
  simp only [following_bind, ite_apply']
  split
  · exact ends_pure
  · have hfirst : Parser.expression n .lowest s.advanced ≠ .exhausted :=
      e.expression _ _ h (by simp only [length_advanced]; omega)
    apply ends_advance
    apply ends_bind ((later n).expression .lowest _) hfirst
    intro first t ht
    have hl := ht.length_le
    simp only [length_advanced] at hl
    exact ends_built (e.moreItems close t (ht.eof ▸ h) (by omega))

theorem succ_moreItems (e : Enough n) (close : Token.Kind) (h : s.eof.kind = .eof)
    (hn : 8 * s.tokens.length + 1 ≤ n + 1) : Parser.moreItems (n + 1) close s ≠ .exhausted := by
  rw [Parser.moreItems]
  simp only [following_bind, ite_apply']
  split
  · rename_i hs
    have hl := of_following h hs (by decide)
    have hitem : Parser.expression n .lowest s.advanced.advanced ≠ .exhausted :=
      e.expression _ _ h (by simp only [length_advanced]; omega)
    apply ends_advance
    apply ends_advance
    apply ends_bind ((later n).expression .lowest _) hitem
    intro item t ht
    have hlt := ht.length_le
    simp only [length_advanced] at hlt
    exact ends_built (e.moreItems close t (ht.eof ▸ h) (by omega))
  · apply ends_expect
    intro _
    exact ends_pure

theorem succ_pairs (e : Enough n) (h : s.eof.kind = .eof) (hn : 8 * (s.tokens.length - 1) + 9 ≤ n + 1) :
    Parser.pairs (n + 1) s ≠ .exhausted := by
  rw [Parser.pairs]
  simp only [following_bind, ite_apply']
  split
  · exact ends_pure
  · have hkey : Parser.expression n .lowest s.advanced ≠ .exhausted :=
      e.expression _ _ h (by simp only [length_advanced]; omega)
    apply ends_advance
    apply ends_bind ((later n).expression .lowest _) hkey
    intro key t ht
    have ht' : t.eof.kind = .eof := ht.eof ▸ h
    have hlt := ht.length_le
    simp only [length_advanced] at hlt
    apply ends_expect
    intro _
    have hvalue : Parser.expression n .lowest t.advanced.advanced ≠ .exhausted :=
      e.expression _ _ ht' (by simp only [length_advanced]; omega)
    apply ends_advance
    apply ends_bind ((later n).expression .lowest _) hvalue
    intro value u hu
    have hu' : u.eof.kind = .eof := hu.eof ▸ ht'
    have hlu := hu.length_le
    simp only [length_advanced] at hlu
    simp only [following_bind, ite_apply']
    split
    · exact ends_pure
    · apply ends_expect
      intro hs'
      have hl' := of_following hu' hs' (by decide)
      apply ends_built
      apply e.pairs u.advanced hu'
      simp only [length_advanced]
      omega

theorem succ_statement (e : Enough n) (h : s.eof.kind = .eof) (hn : 8 * s.tokens.length + 4 ≤ n + 1) :
    Parser.statement (n + 1) s ≠ .exhausted := by
  have value {t : State} (ht : Later s t) : Parser.expression n .lowest t ≠ .exhausted := by
    have hl := ht.length_le
    exact e.expression _ _ (ht.eof ▸ h) (by omega)
  have advanced {t : State} (ht : Later s t) : Later s t.advanced := ht.trans (.advanced t)
  have finish (stmt : Stmt) (t : State) : (do
      if (← following).kind = .semicolon then advance
      return stmt : Parser Stmt) t ≠ .exhausted := by
    simp only [following_bind]
    split
    · exact ends_pure
    · exact ends_pure
  rw [Parser.statement]
  simp only [bind_assoc, current_bind]
  cases s.current.kind with
  | letWord =>
    simp only [bind_assoc]
    apply ends_expect
    intro _
    apply ends_expect
    intro _
    have ht : Later s s.advanced.advanced.advanced := advanced (advanced (.advanced s))
    apply ends_advance
    apply ends_bind ((later n).expression .lowest _) (value ht)
    intro e t _
    exact finish _ t
  | returnWord =>
    simp only [bind_assoc]
    apply ends_advance
    apply ends_bind ((later n).expression .lowest _) (value (.advanced s))
    intro e t _
    exact finish _ t
  | _ =>
    simp only [bind_assoc]
    apply ends_bind ((later n).expression .lowest _) (value (.refl s))
    intro e t _
    exact finish _ t

theorem succ_statements (e : Enough n) (close : Token.Kind) (h : s.eof.kind = .eof)
    (hn : 8 * s.tokens.length + 5 ≤ n + 1) : Parser.statements (n + 1) close s ≠ .exhausted := by
  rw [Parser.statements]
  simp only [current_bind, ite_apply']
  split
  · exact ends_pure
  · rename_i hc
    have hl := length_of_current h fun hk => hc (.inr hk)
    have again {t : State} (ht : Later s t) : Parser.statements n close t.advanced ≠ .exhausted := by
      have hlt := ht.length_le
      exact e.statements _ _ (ht.eof ▸ h) (by simp only [length_advanced]; omega)
    have hs : attempt (Parser.statement n) s ≠ .exhausted := by
      have := e.statement s h (by omega)
      unfold attempt
      cases hx : Parser.statement n s <;> simp_all
    apply ends_bind (laterThan_attempt (later n).statement s) hs
    intro result t ht
    cases result with
    | ok first =>
      apply ends_advance
      exact ends_built (again ht)
    | error error =>
      apply ends_bind (later_congruence.report error t) ends_report
      intro _ u hu
      apply ends_bind (later_congruence.synchronize u) ends_synchronize
      intro _ v hv
      simp only [current_bind, ite_apply']
      split
      · exact ends_pure
      · apply ends_advance
        exact again ((ht.trans hu).trans hv)

theorem succ_block (e : Enough n) (h : s.eof.kind = .eof) (hn : 8 * (s.tokens.length - 1) + 9 ≤ n + 1) :
    Parser.block (n + 1) s ≠ .exhausted := by
  rw [Parser.block]
  have hstmts : Parser.statements n .rbrace s.advanced ≠ .exhausted :=
    e.statements _ _ h (by simp only [length_advanced]; omega)
  apply ends_advance
  apply ends_bind ((later n).statements .rbrace _) hstmts
  intro stmts t _
  simp only [current_bind, ite_apply']
  split
  · exact ends_pure
  · exact ends_fail

theorem zero : Enough 0 := by
  constructor <;> intros <;> omega

theorem all (n : Nat) : Enough n := by
  induction n with
  | zero => exact zero
  | succ n e =>
    exact {
      moreParams := fun _ => e.succ_moreParams
      expression := fun limit _ => e.succ_expression limit
      operand := fun _ => e.succ_operand
      operators := fun limit left _ => e.succ_operators limit left
      extend := fun token left _ => e.succ_extend token left
      conditional := fun _ => e.succ_conditional
      primitive := fun kind word _ => e.succ_primitive kind word
      items := fun close _ => e.succ_items close
      moreItems := fun close _ => e.succ_moreItems close
      pairs := fun _ => e.succ_pairs
      statements := fun close _ => e.succ_statements close
      statement := fun _ => e.succ_statement
      block := fun _ => e.succ_block }

end Enough

-- So the count that is set from the number of tokens is never used up, and the steps may be left out of what is read.
theorem statements_stepLimit {s : State} (h : s.eof.kind = .eof) (close : Token.Kind) :
    statements (stepLimit s.tokens.length) close s = Unbounded.statements close s := by
  obtain ⟨n, hn⟩ := Unbounded.approaches_statements close s
  have hs := (Enough.all (stepLimit s.tokens.length)).statements close s h (by unfold stepLimit; omega)
  have hw := within_add (fun n => (Unbounded.related n).statements close) (stepLimit s.tokens.length) n s
  rw [hw.resolve_left hs]
  exact hn _ (by omega)

theorem statements_ne_exhausted {s : State} (h : s.eof.kind = .eof) (close : Token.Kind) :
    Unbounded.statements close s ≠ .exhausted := by
  rw [← statements_stepLimit h]
  exact (Enough.all _).statements close s h (by unfold stepLimit; omega)

end SolidScript.Parser
