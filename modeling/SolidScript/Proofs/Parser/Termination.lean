import SolidScript.Proofs.Parser.Composition
import SolidScript.Proofs.Token.Tiling

namespace SolidScript

namespace Token

theorem exists_run_of_next {c : Cursor} (h : (next c).1.kind ≠ .eof) :
    ∃ run, run ≠ [] ∧ c.rest = run ++ (next c).2.rest := by
  obtain ⟨blanks, d, rest, -, -, hrest, hnext⟩ := exists_next h
  refine ⟨blanks ++ d :: rest.take (Lexeme.scan d rest).tail, by simp, ?_⟩
  rw [hnext, hrest, List.append_assoc, List.cons_append, List.take_append_drop]

theorem length_allFrom_le (c : Cursor) : (allFrom c).length ≤ c.rest.length + 1 := by
  induction c using allFrom.induct with
  | case1 c heof =>
    rw [allFrom, if_pos heof]
    simp
  | case2 c heof ih =>
    have hlt := length_rest_next_lt heof
    rw [allFrom, if_neg heof, List.length_cons]
    omega

end Token

namespace Parser

variable {α : Type} {s : State}

-- There is an outcome, and it is the same for any number of steps from `limit` on.
def Settles (x : Nat → Parser α) (limit : Nat) (s : State) : Prop :=
  ∃ outcome, outcome ≠ .exhausted ∧ ∀ n, limit ≤ n → x n s = outcome

theorem settles_of_within {x : Nat → Parser α} {limit : Nat} (hx : ∀ n, Within α (x n) (x (n + 1)))
    (h : x limit s ≠ .exhausted) : Settles x limit s := by
  refine ⟨x limit s, h, fun n hn => ?_⟩
  obtain ⟨k, rfl⟩ := Nat.exists_eq_add_of_le hn
  exact ((within_add hx limit k s).resolve_left h).symm

-- Every function that counts steps.
structure Terminates (limit : Nat) (s : State) : Prop where
  moreParams : Settles moreParams limit s
  params : Settles params limit s
  expression : ∀ bound, Settles (expression · bound) limit s
  operand : Settles operand limit s
  operators : ∀ bound left, Settles (operators · bound left) limit s
  extend : ∀ token left, Settles (extend · token left) limit s
  conditional : Settles conditional limit s
  primitive : ∀ kind word, Settles (primitive · kind word) limit s
  items : ∀ close, Settles (items · close) limit s
  moreItems : ∀ close, Settles (moreItems · close) limit s
  pairs : Settles pairs limit s
  statements : ∀ close, Settles (statements · close) limit s
  statement : Settles statement limit s
  block : Settles block limit s

theorem terminates (h : s.eof.kind = .eof) : Terminates (stepLimit s.tokens.length) s := by
  have e := Enough.all (stepLimit s.tokens.length)
  have r := Unbounded.related
  have hlimit : 8 * s.tokens.length + 16 ≤ stepLimit s.tokens.length := by
    unfold stepLimit
    omega
  exact {
    moreParams := settles_of_within (fun n => (r n).moreParams) (e.moreParams s h (by omega))
    params := settles_of_within within_congruence.params (e.params h (by omega))
    expression := fun bound => settles_of_within (fun n => (r n).expression bound) (e.expression bound s h (by omega))
    operand := settles_of_within (fun n => (r n).operand) (e.operand s h (by omega))
    operators := fun bound left =>
      settles_of_within (fun n => (r n).operators bound left) (e.operators bound left s h (by omega))
    extend := fun token left =>
      settles_of_within (fun n => (r n).extend token left) (e.extend token left s h (by omega))
    conditional := settles_of_within (fun n => (r n).conditional) (e.conditional s h (by omega))
    primitive := fun kind word =>
      settles_of_within (fun n => (r n).primitive kind word) (e.primitive kind word s h (by omega))
    items := fun close => settles_of_within (fun n => (r n).items close) (e.items close s h (by omega))
    moreItems := fun close => settles_of_within (fun n => (r n).moreItems close) (e.moreItems close s h (by omega))
    pairs := settles_of_within (fun n => (r n).pairs) (e.pairs s h (by omega))
    statements := fun close => settles_of_within (fun n => (r n).statements close) (e.statements close s h (by omega))
    statement := settles_of_within (fun n => (r n).statement) (e.statement s h (by omega))
    block := settles_of_within (fun n => (r n).block) (e.block s h (by omega)) }

-- A list of statements is always read to its end.
theorem settled_statements (h : s.eof.kind = .eof) (close : Token.Kind) :
    ∃ program t, ∀ n, stepLimit s.tokens.length ≤ n → statements n close s = .done program t := by
  obtain ⟨outcome, hne, hn⟩ := (terminates h).statements close
  cases outcome with
  | done program t => exact ⟨program, t, hn⟩
  | failed error t => exact absurd (hn _ le_rfl) (statements_ne_failed _ close s error t)
  | exhausted => exact absurd rfl hne

end Parser

open SolidScript.Parser

-- The states of the third part may stand at the end of the text in the middle of whatever is being read. Recovery
-- stays where it is or moves on, and the count of steps covers what is read behind it.
theorem parse_terminates (source : String) :
    (∀ c : Cursor, (Token.next c).1.kind ≠ .eof → ∃ run, run ≠ [] ∧ c.rest = run ++ (Token.next c).2.rest) ∧
    (Token.tokenize source).length ≤ source.toList.length + 1 ∧
    (∀ s : State, s.eof.kind = .eof → Terminates (stepLimit s.tokens.length) s) ∧
    (∀ tokens, skipStatement tokens <:+ tokens) ∧
    let start := State.ofTokens (Token.tokenize source)
    ∃ program t, (∀ n, stepLimit start.tokens.length ≤ n → statements n .eof start = .done program t) ∧
      parse source = ⟨program, t.errors⟩ := by
  refine ⟨fun c => Token.exists_run_of_next, Token.length_allFrom_le _, fun s => terminates, skipStatement_suffix, ?_⟩
  intro start
  obtain ⟨program, t, hn⟩ := settled_statements (at_ofTokens source).eof .eof
  refine ⟨program, t, hn, ?_⟩
  unfold parse Parsed.ofTokens
  simp only [hn _ le_rfl]

-- The end of the text where a key is due, and where an argument is.
theorem parse_terminates_truncated :
    let eof : Token := ⟨.eof, "", .start⟩
    let error : ParseError := ⟨.noExpression .eof, .start⟩
    (∀ n, 16 ≤ n → pairs n ⟨[], eof, []⟩ = .failed error ⟨[], eof, []⟩) ∧
      ∀ n, 16 ≤ n → items n .rparen ⟨[], eof, []⟩ = .failed error ⟨[], eof, []⟩ := by
  intro eof error
  obtain ⟨-, -, hs, -⟩ := parse_terminates "\x7b"
  have ht : Terminates 16 ⟨[], eof, []⟩ := hs ⟨[], eof, []⟩ rfl
  obtain ⟨outcome, -, hpairs⟩ := ht.pairs
  obtain ⟨outcome', -, hitems⟩ := ht.items .rparen
  exact ⟨fun n hn => (hpairs n hn).trans (hpairs 16 le_rfl).symm, fun n hn => (hitems n hn).trans (hitems 16 le_rfl).symm⟩

end SolidScript
