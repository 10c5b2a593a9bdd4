import SolidScript.Proofs.Parser.Confined
import SolidScript.Proofs.Parser.Progress
import SolidScript.Proofs.Token.Lines

namespace SolidScript

namespace Parser

-- At the end of a broken statement the semicolon is found, and nothing behind it is looked at.
theorem skipStatement_brief (v : View) {tokens : List Token}
    (hl : ∃ token ∈ tokens.getLast?, token.kind = .semicolon) (hp : ∀ token ∈ tokens, isBrace token = false) :
    (∃ token ∈ (skipStatement tokens).head?, token.kind = .semicolon) ∧
      skipStatement (tokens.map v.token ++ v.tail) = (skipStatement tokens).map v.token ++ v.tail := by
  fun_induction skipStatement tokens with
  | case1 => simp at hl
  | case2 token =>
    have hk : token.kind = .semicolon := by simpa using hl
    refine ⟨⟨token, by simp, hk⟩, ?_⟩
    cases v.tail <;> simp [skipStatement, hk]
  | case3 token next rest hstop =>
    have hk : token.kind = .semicolon := by simp_all [isBrace]
    refine ⟨⟨token, by simp, hk⟩, ?_⟩
    simp [skipStatement, hk]
  | case4 token next rest hstop ih =>
    obtain ⟨hsemicolon, hview⟩ := ih (by simpa using hl) fun token ht => hp token (List.mem_cons_of_mem _ ht)
    refine ⟨hsemicolon, ?_⟩
    rw [← hview]
    simp [skipStatement, hstop]

-- A whole number of statements is still to be read, up to the end of the tokens.
structure Ready (s : State) : Prop where
  eof : s.eof.kind = .eof
  kinds : ∀ token ∈ s.tokens, token.kind ≠ .eof
  ends : s.tokens = [] ∨ Terminated s

namespace Ready

variable {s t : State}

theorem of_later (h : Ready s) (hl : Later s t) : Ready t where
  eof := hl.eof ▸ h.eof
  kinds token ht := h.kinds token (hl.tokens.subset ht)
  ends := by
    by_cases ht : t.tokens = []
    · exact .inl ht
    · refine .inr (Terminated.of_later (h.ends.resolve_left fun hs => ht ?_) hl ht)
      exact List.suffix_nil.1 (hs ▸ hl.tokens)

theorem current_ne_eof (h : Ready s) (hs : s.tokens ≠ []) : s.current.kind ≠ .eof := by
  obtain ⟨token, rest, ht⟩ := List.exists_cons_of_ne_nil hs
  simpa [State.current, ht] using h.kinds token (by simp [ht])

end Ready

namespace Unbounded

variable {s t : State}

-- Some number of steps is enough for both states.
theorem statement_both (s t : State) :
    ∃ n, Parser.statement n s = statement s ∧ Parser.statement n t = statement t := by
  obtain ⟨n, hn⟩ := approaches_statement s
  obtain ⟨m, hm⟩ := approaches_statement t
  exact ⟨max n m, hn _ (by omega), hm _ (by omega)⟩

theorem statement_done {v : View} {stmt : Stmt} (h : statement s = .done stmt t) (hs : Terminated s) :
    t.tokens ≠ [] ∧ statement (v.state s) = .done stmt (v.state t) := by
  obtain ⟨n, hn, hm⟩ := statement_both s (v.state s)
  rw [← hm]
  exact Parser.statement_done (hn.trans h) hs

theorem statement_failed {v : View} {e : ParseError} (h : statement s = .failed e t) (hs : Brief s) :
    t.tokens ≠ [] ∧ statement (v.state s) = .failed (v.error e) (v.state t) := by
  obtain ⟨n, hn, hm⟩ := statement_both s (v.state s)
  rw [← hm]
  exact Parser.statement_failed (hn.trans h) hs

theorem statements_of_done {close : Token.Kind} {stmt : Stmt} (hc : ¬ (s.current.kind = close ∨ s.current.kind = .eof))
    (h : statement s = .done stmt t) :
    statements close s = (do return stmt :: (← statements close)) t.advanced := by
  refine (congrFun (statements_eq close) s).trans ?_
  rw [current_bind, if_neg hc, bind_apply]
  simp only [attempt, h]
  rfl

theorem statements_of_failed {close : Token.Kind} {e : ParseError}
    (hc : ¬ (s.current.kind = close ∨ s.current.kind = .eof)) (h : statement s = .failed e t) :
    statements close s = (do if (← current).kind = close then return [] else advance; statements close)
      { t with tokens := skipStatement t.tokens, errors := t.errors ++ [e] } := by
  refine (congrFun (statements_eq close) s).trans ?_
  rw [current_bind, if_neg hc, bind_apply]
  simp only [attempt, h]
  rfl

-- A broken statement leaves an error.
theorem errors_ne_nil_of_failed {close : Token.Kind} {e : ParseError} {program : List Stmt} {u : State}
    (hc : ¬ (s.current.kind = close ∨ s.current.kind = .eof)) (hx : statement s = .failed e u)
    (h : statements close s = .done program t) : t.errors ≠ [] := by
  intro ht
  rw [statements_of_failed hc hx] at h
  simpa using (later_of_done h).errors_eq_nil ht

-- A broken statement without braces is skipped up to its semicolon, in the view as well.
theorem statements_skip (v : View) {e : ParseError} {u : State} (hs : Brief s) (hk : s.current.kind ≠ .eof)
    (hx : statement s = .failed e u) :
    ∃ w, Later s w ∧ w.tokens ≠ [] ∧ statements .eof s = statements .eof w.advanced ∧
      statements .eof (v.state s) = statements .eof (v.state w.advanced) := by
  have hl := later_of_failed hx
  obtain ⟨hu, hview⟩ := statement_failed (v := v) hx hs
  have hb := hs.of_later hl hu
  obtain ⟨⟨semicolon, hhead, hkind⟩, hskip⟩ := skipStatement_brief v hb.last hb.plain
  obtain ⟨rest, htokens⟩ := List.head?_eq_some_iff.1 hhead
  let w : State := { u with tokens := skipStatement u.tokens, errors := u.errors ++ [e] }
  have hw : w.tokens ≠ [] := by simp [w, htokens]
  have hc : w.current.kind ≠ .eof := by simp [w, State.current, htokens, hkind]
  have hstate : { v.state u with
      tokens := skipStatement (v.state u).tokens, errors := (v.state u).errors ++ [v.error e] } = v.state w := by
    simp [View.state, w, hskip]
  refine ⟨w, hl.trans ⟨rfl, skipStatement_suffix _, List.prefix_append _ _⟩, hw, ?_, ?_⟩
  · rw [statements_of_failed (by simpa using hk) hx, current_bind, if_neg hc, advance_bind]
  · rw [statements_of_failed (by simpa [View.current_state hs.ne_nil] using hk) hview, hstate, current_bind,
      View.current_state hw, View.kind_token, if_neg hc, advance_bind, View.advanced_state hw]

-- The loop over the statements of a text. It leaves no token, and goes on with what stands behind.
theorem statements_seam (v : View) {program : List Stmt} (hs : Ready s) (h : statements .eof s = .done program t)
    (hp : t.errors = [] ∨ ∀ token ∈ s.tokens, isBrace token = false) :
    t.tokens = [] ∧ statements .eof (v.state s) = (do return program ++ (← statements .eof)) (v.state t) := by
  induction hn : s.tokens.length using Nat.strong_induction_on generalizing s program with
  | _ n ih =>
    by_cases hnil : s.tokens = []
    · have hc : s.current.kind = .eof := by simp [State.current, hnil, hs.eof]
      rw [statements_eq, current_bind, if_pos (.inr hc)] at h
      cases h
      exact ⟨hnil, by simp⟩
    have ht := hs.ends.resolve_left hnil
    have hk := hs.current_ne_eof hnil
    have hc : ¬ (s.current.kind = .eof ∨ s.current.kind = .eof) := by simpa using hk
    -- what is left behind a token of the statement is shorter, and there the induction goes on
    have next {u : State} {rest : List Stmt} (hl : Later s u) (hu : u.tokens ≠ [])
        (hr : statements .eof u.advanced = .done rest t) : t.tokens = [] ∧
          statements .eof (v.state u.advanced) = (do return rest ++ (← statements .eof)) (v.state t) := by
      have hlater := hl.trans (.advanced u)
      have hlength : u.advanced.tokens.length < n := by
        have hle := hl.length_le
        have hpos := List.length_pos_iff.2 hu
        rw [length_advanced]
        omega
      exact ih _ hlength (hs.of_later hlater) hr (hp.imp_right fun hp token hm => hp token (hlater.tokens.subset hm)) rfl
    cases hx : statement s with
    | done first u =>
      obtain ⟨hu, hview⟩ := statement_done (v := v) hx ht
      rw [statements_of_done hc hx] at h
      obtain ⟨rest, w, hw, h⟩ := bind_eq_done h
      cases h
      obtain ⟨htokens, hseam⟩ := next (later_of_done hx) hu hw
      refine ⟨htokens, ?_⟩
      rw [statements_of_done (by simpa [View.current_state hnil] using hk) hview, View.advanced_state hu, bind_apply,
        hseam, bind_apply, bind_apply]
      cases statements .eof (v.state t) <;> rfl
    | failed e u =>
      have hplain := hp.resolve_left (errors_ne_nil_of_failed hc hx h)
      obtain ⟨w, hl, hw, hskip, hview⟩ := statements_skip v ⟨ht, hplain⟩ hk hx
      rw [hview]
      exact next hl hw (hskip ▸ h)
    | exhausted =>
      rw [statements_eq, current_bind, if_neg hc, bind_apply] at h
      simp [attempt, hx] at h

theorem statements_mirrored {v : View} {close : Token.Kind} {program : List Stmt}
    (h : statements close s = .done program t) (ht : v.InSight t) :
    statements close (v.state s) = .done program (v.state t) := by
  obtain ⟨n, hn⟩ := approaches_statements close s
  obtain ⟨m, hm⟩ := approaches_statements close (v.state s)
  rw [← hm (max n m) (by omega)]
  exact ((v.simulation.simulated (Nat.le_refl _)).statements close).done ((hn _ (by omega)).trans h) ht

end Unbounded

-- Errors of single statements are kept, so a list of statements never fails as a whole.
theorem statements_ne_failed (n : Nat) (close : Token.Kind) (s : State) (e : ParseError) (t : State) :
    statements n close s ≠ .failed e t := by
  induction n generalizing s with
  | zero =>
    intro h
    cases h
  | succ n ih =>
    have rest (first : Stmt) (u : State) : (do return first :: (← statements n close) : Parser _) u ≠ .failed e t := by
      intro h
      rw [bind_apply] at h
      cases hs : statements n close u with
      | failed d w =>
        rw [hs] at h
        exact ih u (hs.trans h)
      | _ =>
        rw [hs] at h
        cases h
    intro h
    rw [statements, current_bind] at h
    split at h
    · cases h
    · rw [bind_apply] at h
      unfold attempt at h
      cases hs : statement n s with
      | done first u =>
        rw [hs] at h
        exact rest first u.advanced h
      | failed d u =>
        rw [hs] at h
        simp only [report, synchronize, bind_apply, current] at h
        split at h
        · cases h
        · exact ih _ h
      | exhausted =>
        rw [hs] at h
        cases h

theorem exists_statements {s : State} (h : s.eof.kind = .eof) (close : Token.Kind) :
    ∃ program t, Unbounded.statements close s = .done program t := by
  obtain ⟨n, hn⟩ := Unbounded.approaches_statements close s
  cases hs : Unbounded.statements close s with
  | done program t => exact ⟨program, t, rfl⟩
  | failed e t => exact absurd ((hn n n.le_refl).trans hs) (statements_ne_failed n close s e t)
  | exhausted => exact absurd hs (statements_ne_exhausted h close)

theorem exists_parse (source : String) :
    ∃ n program t, statements n .eof (State.ofTokens (Token.tokenize source)) = .done program t ∧
      parse source = ⟨program, t.errors⟩ := by
  obtain ⟨program, t, hdone⟩ := exists_statements (at_ofTokens source).eof .eof
  refine ⟨_, program, t, (statements_stepLimit (at_ofTokens source).eof .eof).trans hdone, ?_⟩
  rw [parse_eq, hdone]

-- A list of statements ends in front of its closing token or with the text.
theorem kind_of_statements {n : Nat} {close : Token.Kind} {s t : State} {stmts : List Stmt}
    (h : statements n close s = .done stmts t) : t.current.kind = close ∨ t.current.kind = .eof := by
  induction n generalizing s stmts with
  | zero => cases h
  | succ n ih =>
    rw [statements, current_bind] at h
    split at h
    · cases h
      assumption
    · obtain ⟨result, t₁, -, h⟩ := bind_eq_done h
      cases result with
      | ok first =>
        obtain ⟨rest, t₂, hrest, h⟩ := bind_eq_done (x := statements n close) (s := t₁.advanced) h
        cases h
        exact ih hrest
      | error e =>
        obtain ⟨-, t₂, -, h⟩ := bind_eq_done h
        obtain ⟨-, t₃, -, h⟩ := bind_eq_done h
        rw [current_bind] at h
        split at h
        · cases h
          exact .inl ‹_›
        · exact ih (s := t₃.advanced) h

-- The end of a text is no token that the parser reads.
theorem tokens_ofTokens (source : String) :
    (State.ofTokens (Token.tokenize source)).tokens =
      (Token.tokenize source).dropLast.filter fun t => t.kind != .comment && t.kind != .eof := by
  have hne : Token.tokenize source ≠ [] := Token.allFrom_ne_nil _
  have hlast : ((Token.tokenize source).getLast hne).kind = .eof := by
    have hk : ((Token.tokenize source).getLastD default).kind = .eof := kind_getLastD_allFrom _ _
    rwa [List.getLastD_eq_getLast?, List.getLast?_eq_some_getLast hne] at hk
  show (Token.tokenize source).filter _ = _
  conv_lhs => rw [← List.dropLast_concat_getLast hne]
  simp [List.filter_append, hlast]

theorem kind_ne_eof_ofTokens (tokens : List Token) : ∀ token ∈ (State.ofTokens tokens).tokens, token.kind ≠ .eof := by
  intro token ht
  have hread := (List.mem_filter.1 ht).2
  simp_all

-- The upper text, with the tokens of the lower one behind its own.
def upper (a b : String) : View where
  move := id
  tail := (State.ofTokens (Token.tokenize b)).tokens.map (Token.below a)
  eof := (State.ofTokens (Token.tokenize b)).eof.below a
  before := []

-- The lower text, with the errors of the upper one already there.
def lower (a b : String) (errors : List ParseError) : View where
  move := Position.below a
  tail := []
  eof := (State.ofTokens (Token.tokenize b)).eof.below a
  before := errors

theorem state_upper (a b : String) :
    (upper a b).state (State.ofTokens (Token.tokenize a)) =
      State.ofTokens ((Token.tokenize a).dropLast ++ (Token.tokenize b).map (Token.below a)) := by
  have hne : Token.tokenize b ≠ [] := Token.allFrom_ne_nil _
  have htokens := List.map_id (State.ofTokens (Token.tokenize a)).tokens
  have heof : (State.ofTokens ((Token.tokenize a).dropLast ++ (Token.tokenize b).map (Token.below a))).eof =
      (State.ofTokens (Token.tokenize b)).eof.below a := by
    simp only [State.ofTokens, List.getLastD_eq_getLast?, List.getLast?_append, List.getLast?_map,
      List.getLast?_eq_some_getLast hne]
    rfl
  rw [tokens_ofTokens a] at htokens
  rw [View.state, State.mk.injEq]
  refine ⟨?_, heof.symm, rfl⟩
  rw [tokens_ofTokens a]
  refine (congrArg (· ++ _) htokens).trans ?_
  simp only [upper, State.ofTokens, List.filter_append, List.filter_map]
  rfl

theorem state_lower {a b : String} {t : State} (h : t.tokens = []) :
    (upper a b).state t = (lower a b t.errors).state (State.ofTokens (Token.tokenize b)) := by
  have herrors : t.errors.map (upper a b).error = t.errors := List.map_id _
  rw [View.state, View.state, State.mk.injEq, h]
  exact ⟨(List.append_nil _).symm, rfl, herrors.trans (List.append_nil _).symm⟩

end Parser

-- The last token that is not a comment is a semicolon.
def endsStatement (source : String) : Bool :=
  (((Token.tokenize source).filter fun t => t.kind != .comment && t.kind != .eof).getLast?).any (·.kind == .semicolon)

def hasBraces (source : String) : Bool := (Token.tokenize source).any Parser.isBrace

-- An error of the lower text.
def ParseError.below (text : String) (e : ParseError) : ParseError := { e with position := e.position.below text }

namespace Parser

theorem terminated_of_endsStatement {source : String} (h : endsStatement source) :
    Terminated (State.ofTokens (Token.tokenize source)) where
  eof := (at_ofTokens source).eof
  last := by
    obtain ⟨token, ht, hk⟩ := (Option.any_eq_true _ _).1 h
    exact ⟨token, ht, by simpa using hk⟩

-- A string at the end would go on below.
theorem kind_ne_string_of_endsStatement {source : String} (h : endsStatement source) :
    ∀ t ∈ (Token.tokenize source).dropLast.getLast?, t.kind ≠ .string := by
  intro t ht hk
  obtain ⟨before, hbefore⟩ := List.getLast?_eq_some_iff.1 ht
  obtain ⟨last, hlast, hsemicolon⟩ := (terminated_of_endsStatement h).last
  rw [tokens_ofTokens, hbefore] at hlast
  simp [List.filter_append, hk] at hlast
  simp_all

theorem ready_of_endsStatement {source : String} (h : endsStatement source) :
    Ready (State.ofTokens (Token.tokenize source)) where
  eof := (at_ofTokens source).eof
  kinds := kind_ne_eof_ofTokens _
  ends := .inr (terminated_of_endsStatement h)

theorem parse_seam {a : String} (b : String) (hend : endsStatement a)
    (h : (parse a).errors = [] ∨ ∀ token ∈ (State.ofTokens (Token.tokenize a)).tokens, isBrace token = false) :
    parse (a ++ "\n" ++ b) =
      ⟨(parse a).program ++ (parse b).program, (parse a).errors ++ (parse b).errors.map (ParseError.below a)⟩ := by
  obtain ⟨pa, ta, ha⟩ := exists_statements (at_ofTokens a).eof .eof
  obtain ⟨pb, tb, hb⟩ := exists_statements (at_ofTokens b).eof .eof
  have hpa : parse a = ⟨pa, ta.errors⟩ := by rw [parse_eq, ha]
  have hpb : parse b = ⟨pb, tb.errors⟩ := by rw [parse_eq, hb]
  rw [hpa] at h
  obtain ⟨hta, hseam⟩ := Unbounded.statements_seam (upper a b) (ready_of_endsStatement hend) ha h
  have hsight : (lower a b ta.errors).InSight tb := .inl ⟨rfl, by rw [(later_of_done hb).eof]; rfl⟩
  have hlower := Unbounded.statements_mirrored hb hsight
  rw [parse_eq, Token.tokenize_below b (kind_ne_string_of_endsStatement hend), ← state_upper, hseam, state_lower hta,
    bind_apply, hlower, hpa, hpb]
  rfl

end Parser

-- What is wrong in a statement of the upper text ends with the statement, and nothing of the lower text is read
-- differently because of it. In the errors of the lower text all places are moved down.
theorem parse_below (a b : String) (hend : endsStatement a) (h : (parse a).isOk ∨ hasBraces a = false) :
    parse (a ++ "\n" ++ b) =
      ⟨(parse a).program ++ (parse b).program, (parse a).errors ++ (parse b).errors.map (ParseError.below a)⟩ := by
  refine Parser.parse_seam b hend (h.imp List.isEmpty_iff.1 fun hb token ht => ?_)
  have hall : ∀ t ∈ Token.tokenize a, Parser.isBrace t = false := by simpa [hasBraces] using hb
  exact hall token (List.mem_filter.1 ht).1

theorem parse_below_broken :
    let a := "cube(1; let = 2; // open\nx[3; y = (4);"
    let b := "z; \x7d\nsphere(;"
    (endsStatement a ∧ (parse a).isOk = false ∧ hasBraces a = false) ∧
      parse (a ++ "\n" ++ b) =
        ⟨(parse a).program ++ (parse b).program, (parse a).errors ++ (parse b).errors.map (ParseError.below a)⟩ := by
  intro a b
  have h : endsStatement a ∧ (parse a).isOk = false ∧ hasBraces a = false := by decide +kernel
  exact ⟨h, parse_below a b h.1 (.inr h.2.2)⟩

end SolidScript
