import SolidScript.Proofs.Parser.Composition
import SolidScript.Proofs.Token.Layout

namespace SolidScript

namespace Parser

variable {α β : Type}

-- The same words to read, and the same errors up to their places.
structure State.Alike (s t : State) : Prop where
  tokens : t.tokens.map Token.word = s.tokens.map Token.word
  eof : t.eof.word = s.eof.word
  errors : t.errors.map ParseError.cause = s.errors.map ParseError.cause

namespace State.Alike

variable {s t : State}

theorem current (h : s.Alike t) : t.current.word = s.current.word := by
  have ht := h.tokens
  unfold State.current
  cases hs : s.tokens <;> cases hu : t.tokens <;> simp_all [h.eof]

theorem advanced (h : s.Alike t) : s.advanced.Alike t.advanced where
  tokens := by
    have ht := congrArg List.tail h.tokens
    rwa [← List.map_tail, ← List.map_tail] at ht
  eof := h.eof
  errors := h.errors

theorem following (h : s.Alike t) : t.following.word = s.following.word := h.advanced.current

end State.Alike

theorem skipStatement_alike {tokens others : List Token} (h : others.map Token.word = tokens.map Token.word) :
    (skipStatement others).map Token.word = (skipStatement tokens).map Token.word := by
  fun_induction skipStatement tokens generalizing others with
  | case1 =>
    rw [List.map_eq_nil_iff.1 h]
    rfl
  | case2 token =>
    obtain ⟨other, rfl, hw⟩ := List.map_eq_singleton_iff.1 h
    simpa [skipStatement] using hw
  | case3 token next rest hstop =>
    obtain ⟨token', others, rfl, ht, h⟩ := List.map_eq_cons_iff.1 h
    obtain ⟨next', others, rfl, hn, hr⟩ := List.map_eq_cons_iff.1 h
    have htk : token'.kind = token.kind := congrArg Prod.fst ht
    have hnk : next'.kind = next.kind := congrArg Prod.fst hn
    rw [skipStatement, htk, hnk, if_pos hstop]
    simp [ht, hn, hr]
  | case4 token next rest hstop ih =>
    obtain ⟨token', others, rfl, ht, h⟩ := List.map_eq_cons_iff.1 h
    obtain ⟨next', others, rfl, hn, -⟩ := List.map_eq_cons_iff.1 h
    have htk : token'.kind = token.kind := congrArg Prod.fst ht
    have hnk : next'.kind = next.kind := congrArg Prod.fst hn
    rw [skipStatement, htk, hnk, if_neg hstop]
    exact ih h

-- What a parser does with the same words in other places.
def Outcome.Alike (o p : Outcome α) : Prop :=
  match o with
  | done a s => ∃ t, p = done a t ∧ s.Alike t
  | failed d s => ∃ e t, p = failed e t ∧ e.cause = d.cause ∧ s.Alike t
  | exhausted => True

-- The right parser does with the same words what the left one does.
def Alike (α : Type) (x y : Parser α) : Prop := ∀ s t : State, s.Alike t → (x s).Alike (y t)

theorem alike_bind {x y : Parser α} {f g : α → Parser β} (hx : Alike α x y) (hf : ∀ a, Alike β (f a) (g a)) :
    Alike β (x >>= f) (y >>= g) := by
  intro s t h
  have hxs := hx s t h
  rw [bind_apply, bind_apply]
  cases hs : x s with
  | done a u =>
    rw [hs] at hxs
    obtain ⟨w, hw, hu⟩ := hxs
    rw [hw]
    exact hf a u w hu
  | failed d u =>
    rw [hs] at hxs
    obtain ⟨e, w, hw, he, hu⟩ := hxs
    rw [hw]
    exact ⟨e, w, rfl, he, hu⟩
  | exhausted => trivial

theorem alike_attempt {x y : Parser α} {f g : Except ParseError α → Parser β} (hx : Alike α x y)
    (hf : ∀ a, Alike β (f (.ok a)) (g (.ok a)))
    (hg : ∀ d e : ParseError, e.cause = d.cause → Alike β (f (.error d)) (g (.error e))) :
    Alike β (attempt x >>= f) (attempt y >>= g) := by
  intro s t h
  have hxs := hx s t h
  simp only [bind_apply, attempt]
  cases hs : x s with
  | done a u =>
    rw [hs] at hxs
    obtain ⟨w, hw, hu⟩ := hxs
    rw [hw]
    exact hf a u w hu
  | failed d u =>
    rw [hs] at hxs
    obtain ⟨e, w, hw, he, hu⟩ := hxs
    rw [hw]
    exact hg d e he u w hu
  | exhausted => trivial

theorem alike_simulation :
    Simulation (fun t u => u.word = t.word) (fun d e => e.cause = d.cause) Alike where
  kind h := congrArg Prod.fst h
  literal h := congrArg Prod.snd h
  outOfSteps _ _ _ _ := trivial
  pure a s t h := ⟨t, rfl, h⟩
  current hf := by
    intro s t h
    rw [current_bind, current_bind]
    exact hf _ _ h.current s t h
  following hf := by
    intro s t h
    rw [following_bind, following_bind]
    exact hf _ _ h.following s t h
  advance s t h := ⟨t.advanced, rfl, h.advanced⟩
  fail cause _ s t h := ⟨_, t, rfl, rfl, h⟩
  report he s t h := ⟨_, rfl, h.tokens, h.eof, by simp [h.errors, he]⟩
  synchronize s t h := ⟨_, rfl, skipStatement_alike h.tokens, h.eof, h.errors⟩
  attempt := alike_attempt
  bind := alike_bind

theorem word_getLastD_allFrom (c : Cursor) (default : Token) : ((Token.allFrom c).getLastD default).word = (.eof, "") := by
  induction c using Token.allFrom.induct generalizing default with
  | case1 c hc =>
    rw [Token.allFrom, if_pos hc]
    show (Token.next c).1.word = _
    unfold Token.next at hc ⊢
    dsimp only at hc ⊢
    split at hc
    · rfl
    · exact absurd hc (Token.kind_scan_ne_eof _ _)
  | case2 c hc ih =>
    rw [Token.allFrom, if_neg hc, List.getLastD_cons]
    exact ih _

theorem alike_ofTokens {a b : String} (h : Token.words b.toList = Token.words a.toList) :
    (State.ofTokens (Token.tokenize a)).Alike (State.ofTokens (Token.tokenize b)) where
  tokens := by rw [(at_ofTokens b).words, (at_ofTokens a).words, h]
  eof := by
    unfold State.ofTokens Token.tokenize
    rw [word_getLastD_allFrom, word_getLastD_allFrom]
  errors := rfl

theorem statements_alike {s t u : State} {close : Token.Kind} {program : List Stmt} (h : s.Alike t)
    (hs : Unbounded.statements close s = .done program u) :
    ∃ w, Unbounded.statements close t = .done program w ∧ u.Alike w := by
  obtain ⟨n, hn⟩ := Unbounded.approaches_statements close s
  obtain ⟨m, hm⟩ := Unbounded.approaches_statements close t
  -- enough steps for both texts
  have hrun := (alike_simulation.simulated (Nat.le_refl (max n m))).statements close s t h
  have hsn : Parser.statements (max n m) close s = .done program u := by rw [← hs]; exact hn _ (by omega)
  have htm : Parser.statements (max n m) close t = Unbounded.statements close t := hm _ (by omega)
  rw [hsn, htm] at hrun
  exact hrun

-- All that a program depends on are the words of its text.
theorem parse_alike {a b : String} (h : Token.words b.toList = Token.words a.toList) :
    (parse b).program = (parse a).program ∧
      (parse b).errors.map ParseError.cause = (parse a).errors.map ParseError.cause := by
  obtain ⟨program, s, ha⟩ := exists_statements (at_ofTokens a).eof .eof
  obtain ⟨t, hb, ht⟩ := statements_alike (alike_ofTokens h) ha
  rw [parse_eq, parse_eq, ha, hb]
  exact ⟨rfl, ht.errors⟩

end Parser

-- A text is cut at a byte in one way only.
theorem append_inj_of_byteSize {a b c d : String} (h : a ++ b = c ++ d) (hs : a.utf8ByteSize = c.utf8ByteSize) :
    a = c ∧ b = d := by
  have hab := String.Pos.splits_ofEqAppend (rfl : a ++ b = a ++ b)
  have hcd := String.Pos.splits_ofEqAppend h
  have hpos : String.Pos.ofEqAppend (rfl : a ++ b = a ++ b) = String.Pos.ofEqAppend h := by
    apply String.Pos.ext
    rw [hab.offset_eq_rawEndPos, hcd.offset_eq_rawEndPos, String.rawEndPos, String.rawEndPos, hs]
  rw [hpos] at hab
  exact hab.eq hcd

-- Blanks and comments in front of a token do not change what is read.
theorem parse_spaced {before behind gap : String} {t : Token} (ht : t ∈ Token.tokenize (before ++ behind))
    (hk : t.kind ≠ .eof) (hp : t.position.byte = before.utf8ByteSize) (hg : Token.IsSpacing gap.toList) :
    (parse (before ++ gap ++ behind)).program = (parse (before ++ behind)).program ∧
      (parse (before ++ gap ++ behind)).errors.map ParseError.cause =
        (parse (before ++ behind)).errors.map ParseError.cause := by
  obtain ⟨front, rest, hsplit, hplace, hstarts⟩ := Token.exists_starts ht hk
  have htext : before ++ behind = String.ofList front ++ String.ofList rest := by
    rw [← String.ofList_append, ← hsplit]
    exact (String.ofList_toList).symm
  have hbyte : before.utf8ByteSize = (String.ofList front).utf8ByteSize := by
    rw [← hp, hplace]
    exact (Position.isBehind_after front).byte
  obtain ⟨rfl, rfl⟩ := append_inj_of_byteSize htext hbyte
  apply Parser.parse_alike
  simpa using Token.words_spaced hstarts hg

-- A number with a second point.
theorem parse_spaced_points :
    let before := "let x 1.2"
    let behind := ".3 = (y!"
    let gap := " // n\n//\n\t"
    (∃ t ∈ Token.tokenize (before ++ behind), t.kind ≠ .eof ∧ t.position.byte = before.utf8ByteSize) ∧
      (parse (before ++ gap ++ behind)).program = (parse (before ++ behind)).program ∧
        (parse (before ++ gap ++ behind)).errors.map ParseError.cause =
          (parse (before ++ behind)).errors.map ParseError.cause := by
  intro before behind gap
  have h : ∃ t ∈ Token.tokenize (before ++ behind), t.kind ≠ .eof ∧ t.position.byte = before.utf8ByteSize := by
    decide +kernel
  have hgap : gap.toList = ' ' :: ('/' :: '/' :: [' ', 'n'] ++ '\n' :: ('/' :: '/' :: [] ++ '\n' :: ['\t'])) := by
    decide
  have hlayout : Token.Layout gap.toList := by
    rw [hgap]
    exact .blank rfl (.comment (by decide) (.comment (by decide) (.blank rfl .nil)))
  have hapart : ∀ c ∈ gap.toList.head?, Token.isBlank c := by
    intro c hc
    rw [hgap] at hc
    cases hc
    rfl
  obtain ⟨t, ht, hk, hp⟩ := h
  exact ⟨⟨t, ht, hk, hp⟩, parse_spaced ht hk hp ⟨hlayout, hapart⟩⟩

end SolidScript
