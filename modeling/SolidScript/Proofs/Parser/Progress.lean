import SolidScript.Proofs.Parser.Enough
import SolidScript.Proofs.Token.Words

namespace SolidScript

namespace Parser

open Token (Word sign)
variable {α β : Type}

-- A state without errors in front of the words `ws`.
structure At (ws : List Word) (s : State) : Prop where
  words : s.tokens.map Token.word = ws
  eof : s.eof.kind = .eof
  errors : s.errors = []

-- The words behind the current token.
abbrev Behind (ws : List Word) (s : State) : Prop := At ws s.advanced

-- The kind of the first word, or the end if there is none.
def firstKind : List Word → Token.Kind
  | [] => .eof
  | w :: _ => w.1

@[simp] theorem firstKind_cons (w : Word) (ws : List Word) : firstKind (w :: ws) = w.1 := rfl

theorem At.kind {ws : List Word} {s : State} (h : At ws s) : s.current.kind = firstKind ws := by
  rw [← h.words]
  cases ht : s.tokens with
  | nil => simp [State.current, ht, firstKind, h.eof]
  | cons token tokens => simp [State.current, ht, firstKind, Token.word]

theorem At.literal {w : Word} {ws : List Word} {s : State} (h : At (w :: ws) s) : s.current.literal = w.2 := by
  obtain ⟨token, tokens, ht, rfl, -⟩ := List.map_eq_cons_iff.1 h.words
  simp [State.current, ht, Token.word]

theorem At.behind {w : Word} {ws : List Word} {s : State} (h : At (w :: ws) s) : Behind ws s where
  words := by
    obtain ⟨token, tokens, ht, -, hws⟩ := List.map_eq_cons_iff.1 h.words
    simp [State.advanced, ht, hws]
  eof := h.eof
  errors := h.errors

theorem Behind.kind {ws : List Word} {s : State} (h : Behind ws s) : s.following.kind = firstKind ws := At.kind h

theorem expect_sign {kind : Token.Kind} {ws : List Word} {s : State} (h : Behind (sign kind :: ws) s)
    (f : Unit → Parser β) : (expect kind >>= f) s = f () s.advanced :=
  expect_bind h.kind f

-- What cannot go on with a block.
def Ends (ws : List Word) : Prop := (firstKind ws != .elseWord && firstKind ws != .lbrace) = true

-- What cannot go on with an operator either.
def Stops (ws : List Word) : Prop := (Precedence.ofKind (firstKind ws) == .lowest) = true ∧ Ends ws

-- An outcome that leaves an error behind.
def Spoiled (o : Outcome α) : Prop := ∀ a t, o = .done a t → t.errors ≠ []

-- A parser that loses no error.
class Keeps (x : Parser α) : Prop where
  later : ∀ s, (x s).LaterThan s

section Keeps

instance (a : α) : Keeps (Pure.pure a : Parser α) := ⟨fun s => Later.refl s⟩
instance : Keeps current := ⟨later_congruence.current⟩
instance : Keeps following := ⟨later_congruence.following⟩
instance : Keeps advance := ⟨later_congruence.advance⟩
instance (cause : ParseError.Cause) (position : Position) : Keeps (fail cause position : Parser α) :=
  ⟨later_congruence.fail cause position⟩
instance (error : ParseError) : Keeps (report error) := ⟨later_congruence.report error⟩
instance : Keeps synchronize := ⟨later_congruence.synchronize⟩
instance (kind : Token.Kind) : Keeps (expect kind) := ⟨later_congruence.expect kind⟩

instance (x : Parser α) (f : α → Parser β) [hx : Keeps x] [hf : ∀ a, Keeps (f a)] : Keeps (x >>= f) :=
  ⟨laterThan_bind hx.later fun a => (hf a).later⟩

instance (x : Parser α) [hx : Keeps x] : Keeps (attempt x) := ⟨laterThan_attempt hx.later⟩

instance (p : Prop) [Decidable p] (x y : Parser α) [hx : Keeps x] [hy : Keeps y] : Keeps (if p then x else y) :=
  ⟨later_congruence.ite (y := x) (v := y) hx.later hy.later⟩

theorem keeps_of_approaches {x : Nat → Parser α} {y : Parser α} (h : Approaches x y)
    (hx : ∀ n s, (x n s).LaterThan s) : Keeps y := by
  refine ⟨fun s => ?_⟩
  obtain ⟨n, hn⟩ := h s
  rw [← hn n (Nat.le_refl n)]
  exact hx n s

theorem later_of_done {x : Parser α} [hx : Keeps x] {s t : State} {a : α} (h : x s = .done a t) : Later s t := by
  have hl := hx.later s
  rwa [h] at hl

theorem later_of_failed {x : Parser α} [hx : Keeps x] {s t : State} {e : ParseError} (h : x s = .failed e t) :
    Later s t := by
  have hl := hx.later s
  rwa [h] at hl

end Keeps

theorem Spoiled.bind {x : Parser α} {s : State} (h : Spoiled (x s)) (f : α → Parser β) [hf : ∀ a, Keeps (f a)] :
    Spoiled ((x >>= f) s) := by
  intro b u hu
  rw [bind_apply] at hu
  cases hx : x s with
  | done a t =>
    simp only [hx] at hu
    exact fun hn => h a t hx ((later_of_done hu).errors_eq_nil hn)
  | failed e t => simp [hx] at hu
  | exhausted => simp [hx] at hu

theorem spoiled_of_later {o : Outcome α} {s : State} (hs : s.errors ≠ []) (h : o.LaterThan s) : Spoiled o := by
  rintro a t rfl ht
  exact hs (Later.errors_eq_nil h ht)

-- If `good` holds then what is left to do is `y` from a state where `P` holds, and otherwise an error is left.
def Goes (good : Prop) (P : State → Prop) (y : Parser α) (o : Outcome α) : Prop :=
  (good → ∃ t, P t ∧ o = y t) ∧ (¬ good → Spoiled o)

namespace Goes

variable {good q : Prop} {P Q : State → Prop} {y z : Parser α} {o : Outcome α}

theorem of_eq {t : State} (ht : P t) (h : o = y t) : Goes True P y o := ⟨fun _ => ⟨t, ht, h⟩, by simp⟩

theorem congr (h : Goes good P y o) (hg : q ↔ good) : Goes q P y o :=
  ⟨fun k => h.1 (hg.1 k), fun k => h.2 (k ∘ hg.2)⟩

theorem bind {x : Parser α} {s : State} (h : Goes good P y (x s)) (f : α → Parser β) [∀ a, Keeps (f a)] :
    Goes good P (y >>= f) ((x >>= f) s) := by
  constructor
  · intro hg
    obtain ⟨t, ht, hx⟩ := h.1 hg
    exact ⟨t, ht, by rw [bind_apply, hx, bind_apply]⟩
  · exact fun hg => (h.2 hg).bind f

theorem trans (h : Goes good P y o) (k : ∀ t, P t → Goes q Q z (y t)) : Goes (good ∧ q) Q z o := by
  by_cases hg : good
  · obtain ⟨t, ht, rfl⟩ := h.1 hg
    exact (k t ht).congr (by simp [hg])
  · exact ⟨fun h => absurd h.1 hg, fun _ => h.2 hg⟩

-- Something is read, and then the rest.
theorem seq {x : Parser α} {f : α → Parser β} [∀ a, Keeps (f a)] {v : α} {s : State} {w : Parser β}
    (h : Goes good P (Pure.pure v) (x s)) (k : ∀ t, P t → Goes q Q w (f v t)) :
    Goes (good ∧ q) Q w ((x >>= f) s) :=
  (h.bind f).trans k

-- The same where nothing can go wrong in what follows.
theorem onward (h : Goes good P y o) (k : ∀ t, P t → Goes True Q z (y t)) : Goes good Q z o :=
  (h.trans k).congr (and_true _).symm.to_iff

theorem read {x : Parser α} {f : α → Parser β} [∀ a, Keeps (f a)] {v : α} {s : State} {w : Parser β}
    (h : Goes good P (Pure.pure v) (x s)) (k : ∀ t, P t → Goes True Q w (f v t)) : Goes good Q w ((x >>= f) s) :=
  (h.bind f).onward k

-- Nothing is read behind.
theorem built {x : Parser α} {v : α} {s : State} (h : Goes good P (Pure.pure v) (x s)) (f : α → β) :
    Goes good P (Pure.pure (f v)) ((do return f (← x)) s) := h.bind _

end Goes

namespace Unbounded

instance (bound : Precedence) : Keeps (expression bound) :=
  keeps_of_approaches (approaches_expression bound) fun n => (later n).expression bound
instance (bound : Precedence) (left : Expr) : Keeps (operators bound left) :=
  keeps_of_approaches (approaches_operators bound left) fun n => (later n).operators bound left
instance (close : Token.Kind) : Keeps (items close) :=
  keeps_of_approaches (approaches_items close) fun n => (later n).items close
instance (close : Token.Kind) : Keeps (moreItems close) :=
  keeps_of_approaches (approaches_moreItems close) fun n => (later n).moreItems close
instance : Keeps pairs := keeps_of_approaches approaches_pairs fun n => (later n).pairs
instance (close : Token.Kind) : Keeps (statements close) :=
  keeps_of_approaches (approaches_statements close) fun n => (later n).statements close
instance : Keeps statement := keeps_of_approaches approaches_statement fun n => (later n).statement
instance : Keeps block := keeps_of_approaches approaches_block fun n => (later n).block

end Unbounded

theorem kind_getLastD_allFrom (c : Cursor) (default : Token) :
    ((Token.allFrom c).getLastD default).kind = .eof := by
  induction c using Token.allFrom.induct generalizing default with
  | case1 c hc =>
    rw [Token.allFrom, if_pos hc]
    exact hc
  | case2 c hc ih =>
    rw [Token.allFrom, if_neg hc, List.getLastD_cons]
    exact ih _

-- The parser starts in front of all words of the text.
theorem at_ofTokens (source : String) :
    At (Token.words source.toList) (State.ofTokens (Token.tokenize source)) where
  words := by
    rw [← Token.read_tokenize, Token.read, List.filter_map]
    rfl
  eof := kind_getLastD_allFrom _ _
  errors := rfl

theorem parse_eq (source : String) :
    parse source = match Unbounded.statements .eof (State.ofTokens (Token.tokenize source)) with
      | .done program state => ⟨program, state.errors⟩
      | .failed error state => ⟨[], state.errors ++ [error]⟩
      | .exhausted => ⟨[], []⟩ := by
  rw [← statements_stepLimit (at_ofTokens source).eof]
  rfl

end Parser

end SolidScript
