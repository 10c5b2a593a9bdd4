import SolidScript.Proofs.Printer.Spelling
import SolidScript.Proofs.Token.Gist

namespace SolidScript

open Token (Word Kind Content sign sense senses)

namespace Expr

theorem spellMoreNames_append (names : List String) (ws us : List Word) :
    spellMoreNames names (ws ++ us) = spellMoreNames names ws ++ us := by
  induction names with
  | nil => rfl
  | cons name names ih => simp only [spellMoreNames, ih, List.cons_append]

theorem spellNames_append (names : List String) (ws us : List Word) :
    spellNames names (ws ++ us) = spellNames names ws ++ us := by
  cases names with
  | nil => rfl
  | cons name names => simp only [spellNames, spellMoreNames_append, List.cons_append]

mutual

theorem spell_append : (e : Expr) → (ws us : List Word) → spell e (ws ++ us) = spell e ws ++ us
  | .ident _, _, _ | .int _, _, _ | .float _, _, _ | .string _, _, _ | .bool _, _, _ | .undef, _, _ => rfl
  | .unary op right, ws, us => by
    simp only [spell, ← List.cons_append, spell_append right]
  | .binary left op right, ws, us => by
    simp only [spell, ← List.cons_append, spell_append left, spell_append right]
  | .cond condition consequence alternative, ws, us => by
    simp only [spell, ← List.cons_append, spell_append condition, spellStmts_append consequence,
      spellElse_append alternative]
  | .function params body, ws, us => by
    simp only [spell, ← List.cons_append, spellNames_append params, spellStmts_append body]
  | .call callee args, ws, us => by
    simp only [spell, ← List.cons_append, spell_append callee, spellItems_append args]
  | .array elements, ws, us => by
    simp only [spell, ← List.cons_append, spellItems_append elements]
  | .hash pairs, ws, us => by
    simp only [spell, ← List.cons_append, spellPairs_append pairs]
  | .index left key, ws, us => by
    simp only [spell, ← List.cons_append, spell_append left, spell_append key]
  | .named name value, ws, us => by
    simp only [spell, ← List.cons_append, spell_append value]
  | .primitive kind args body, ws, us => by
    simp only [spell, ← List.cons_append, spellItems_append args, spellBody_append body]

theorem spellItems_append : (es : List Expr) → (ws us : List Word) → spellItems es (ws ++ us) = spellItems es ws ++ us
  | [], _, _ => rfl
  | e :: es, ws, us => by simp only [spellItems, spell_append e, spellMoreItems_append es]

theorem spellMoreItems_append : (es : List Expr) → (ws us : List Word) →
    spellMoreItems es (ws ++ us) = spellMoreItems es ws ++ us
  | [], _, _ => rfl
  | e :: es, ws, us => by
    simp only [spellMoreItems, spell_append e, spellMoreItems_append es, List.cons_append]

theorem spellPairs_append : (ps : List (Expr × Expr)) → (ws us : List Word) →
    spellPairs ps (ws ++ us) = spellPairs ps ws ++ us
  | [], _, _ => rfl
  | (key, value) :: ps, ws, us => by
    simp only [spellPairs, ← List.cons_append, spell_append key, spell_append value, spellMorePairs_append ps]

theorem spellMorePairs_append : (ps : List (Expr × Expr)) → (ws us : List Word) →
    spellMorePairs ps (ws ++ us) = spellMorePairs ps ws ++ us
  | [], _, _ => rfl
  | (key, value) :: ps, ws, us => by
    simp only [spellMorePairs, ← List.cons_append, spell_append key, spell_append value, spellMorePairs_append ps]

theorem spellElse_append : (block : Option (List Stmt)) → (ws us : List Word) →
    spellElse block (ws ++ us) = spellElse block ws ++ us
  | none, _, _ => rfl
  | some block, ws, us => by simp only [spellElse, ← List.cons_append, spellStmts_append block]

theorem spellBody_append : (block : Option (List Stmt)) → (ws us : List Word) →
    spellBody block (ws ++ us) = spellBody block ws ++ us
  | none, _, _ => rfl
  | some block, ws, us => by simp only [spellBody, ← List.cons_append, spellStmts_append block]

theorem spellStmts_append : (block : List Stmt) → (ws us : List Word) →
    spellStmts block (ws ++ us) = spellStmts block ws ++ us
  | [], _, _ => rfl
  | [s], ws, us => by simp only [spellStmts, spellStmt_append s]
  | .bind name value :: t :: block, ws, us => by
    simp only [spellStmts, spellStmt_append (.bind name value), spellStmts_append (t :: block), Stmt.spellTerminator]
  | .ret value :: t :: block, ws, us => by
    simp only [spellStmts, spellStmt_append (.ret value), spellStmts_append (t :: block), Stmt.spellTerminator]
  | .expr value :: t :: block, ws, us => by
    simp only [spellStmts, spellStmt_append (.expr value), spellStmts_append (t :: block), Stmt.spellTerminator,
      ← List.cons_append]

theorem spellStmt_append : (s : Stmt) → (ws us : List Word) → spellStmt s (ws ++ us) = spellStmt s ws ++ us
  | .bind name value, ws, us => by simp only [spellStmt, ← List.cons_append, spell_append value]
  | .ret value, ws, us => by simp only [spellStmt, ← List.cons_append, spell_append value]
  | .expr value, ws, us => by simp only [spellStmt, spell_append value]

end

-- What an expression says.
def gist (e : Expr) : List (Kind × Content) := senses (spell e [])

end Expr

def Stmt.gist (s : Stmt) : List (Kind × Content) := senses (Expr.spellStmt s [])

namespace Expr

@[simp] theorem senses_spell (e : Expr) (rest : List Word) : senses (spell e rest) = e.gist ++ senses rest := by
  have h := spell_append e [] rest
  rw [List.nil_append] at h
  rw [h, Token.senses_append, gist]

@[simp] theorem senses_spellStmt (s : Stmt) (rest : List Word) :
    senses (spellStmt s rest) = s.gist ++ senses rest := by
  have h := spellStmt_append s [] rest
  rw [List.nil_append] at h
  rw [h, Token.senses_append, Stmt.gist]

theorem senses_spellMoreNames (names : List String) (rest : List Word) :
    senses (spellMoreNames names rest) = names.flatMap (fun name => sense (.ident, name)) ++ senses rest := by
  induction names with
  | nil => rfl
  | cons name names ih => simp [spellMoreNames, ih]

@[simp] theorem senses_spellNames (names : List String) (rest : List Word) :
    senses (spellNames names rest) = names.flatMap (fun name => sense (.ident, name)) ++ senses rest := by
  cases names with
  | nil => rfl
  | cons name names => simp [spellNames, senses_spellMoreNames]

theorem senses_spellMoreItems (es : List Expr) (rest : List Word) :
    senses (spellMoreItems es rest) = es.flatMap gist ++ senses rest := by
  induction es with
  | nil => rfl
  | cons e es ih => simp [spellMoreItems, ih]

@[simp] theorem senses_spellItems (es : List Expr) (rest : List Word) :
    senses (spellItems es rest) = es.flatMap gist ++ senses rest := by
  cases es with
  | nil => rfl
  | cons e es => simp [spellItems, senses_spellMoreItems]

-- What a pair of a hash says.
def pairGist (p : Expr × Expr) : List (Kind × Content) := p.1.gist ++ sense (sign .colon) ++ p.2.gist

theorem senses_spellMorePairs (ps : List (Expr × Expr)) (rest : List Word) :
    senses (spellMorePairs ps rest) = ps.flatMap pairGist ++ senses rest := by
  induction ps with
  | nil => rfl
  | cons p ps ih => simp [spellMorePairs, ih, pairGist]

@[simp] theorem senses_spellPairs (ps : List (Expr × Expr)) (rest : List Word) :
    senses (spellPairs ps rest) = ps.flatMap pairGist ++ senses rest := by
  cases ps with
  | nil => rfl
  | cons p ps => simp [spellPairs, senses_spellMorePairs, pairGist]

-- The semicolons between statements say nothing.
@[simp] theorem senses_spellStmts (block : List Stmt) (rest : List Word) :
    senses (spellStmts block rest) = block.flatMap Stmt.gist ++ senses rest := by
  induction block with
  | nil => rfl
  | cons s block ih =>
    cases block with
    | nil => simp [spellStmts]
    | cons t block =>
      have hterminator (ws : List Word) : senses (s.spellTerminator ws) = senses ws := by
        cases s <;> simp [Stmt.spellTerminator]
      rw [spellStmts, senses_spellStmt, hterminator, ih]
      simp only [List.flatMap_cons, List.append_assoc]

-- What a block that may be missing says.
def blockGist (lead : List (Kind × Content)) : Option (List Stmt) → List (Kind × Content)
  | none => []
  | some block => lead ++ sense (sign .lbrace) ++ block.flatMap Stmt.gist ++ sense (sign .rbrace)

@[simp] theorem senses_spellElse (block : Option (List Stmt)) (rest : List Word) :
    senses (spellElse block rest) = blockGist (sense (sign .elseWord)) block ++ senses rest := by
  cases block with
  | none => rfl
  | some block =>
    have helse : sense (.elseWord, "else") = sense (sign .elseWord) := rfl
    simp [spellElse, blockGist, helse]

@[simp] theorem senses_spellBody (block : Option (List Stmt)) (rest : List Word) :
    senses (spellBody block rest) = blockGist [] block ++ senses rest := by
  cases block with
  | none => rfl
  | some block => simp [spellBody, blockGist]

section parts

variable {condition e key left right value : Expr} {args elements : List Expr} {body consequence : List Stmt}

@[simp] theorem gist_ident (name : String) : (ident name).gist = sense (.ident, name) := rfl

-- Numbers say their value. An infinite number has no literal, but its text can be read.
theorem gist_int {value : Int64} (h : 0 ≤ value.toInt) : (int value).gist = [(.int, .int value)] := by
  change [(Kind.int, Token.content (.int, toString value.toInt))] = _
  rw [Token.content, Number.integer?_int h]
  rfl

theorem gist_float {value : Float} (hn : value.isNaN = false) (hs : Number.isNegative value = false) :
    (float value).gist = [(.float, .float value)] := by
  change [(Kind.float, Token.content (.float, Number.literal value))] = _
  rw [Token.content, Number.ofText?_literal_of_unsigned hn hs]
  rfl

@[simp] theorem gist_unary (op : UnaryOp) : (unary op right).gist = sense (sign op.kind) ++ right.gist := by
  rw [gist, spell]
  simp

@[simp] theorem gist_binary (op : BinaryOp) :
    (binary left op right).gist = left.gist ++ sense (sign op.kind) ++ right.gist := by
  rw [gist, spell]
  simp

@[simp] theorem gist_cond (alternative : Option (List Stmt)) :
    (cond condition consequence alternative).gist =
      sense (sign .ifWord) ++ condition.gist ++ sense (sign .lbrace) ++ consequence.flatMap Stmt.gist ++
        sense (sign .rbrace) ++ blockGist (sense (sign .elseWord)) alternative := by
  have hif : sense (.ifWord, "if") = sense (sign .ifWord) := rfl
  rw [gist, spell]
  simp [hif]

@[simp] theorem gist_function (params : List String) :
    (function params body).gist =
      sense (sign .functionWord) ++ params.flatMap (fun name => sense (.ident, name)) ++ sense (sign .lbrace) ++
        body.flatMap Stmt.gist ++ sense (sign .rbrace) := by
  have hfunction : sense (.functionWord, "function") = sense (sign .functionWord) := rfl
  rw [gist, spell]
  simp [hfunction]

@[simp] theorem gist_call : (call e args).gist = e.gist ++ args.flatMap gist := by
  rw [gist, spell]
  simp

@[simp] theorem gist_array :
    (array elements).gist = sense (sign .lbracket) ++ elements.flatMap gist ++ sense (sign .rbracket) := by
  rw [gist, spell]
  simp

@[simp] theorem gist_hash (ps : List (Expr × Expr)) :
    (hash ps).gist = sense (sign .lbrace) ++ ps.flatMap pairGist ++ sense (sign .rbrace) := by
  rw [gist, spell]
  simp

@[simp] theorem gist_index :
    (index left key).gist = left.gist ++ sense (sign .lbracket) ++ key.gist ++ sense (sign .rbracket) := by
  rw [gist, spell]
  simp

@[simp] theorem gist_named (name : String) :
    (named name value).gist = sense (.ident, name) ++ sense (sign .assign) ++ value.gist := by
  rw [gist, spell]
  simp [Token.sense_ofWord]

@[simp] theorem gist_primitive (kind : Primitive) (block : Option (List Stmt)) :
    (primitive kind args block).gist =
      sense (sign (.primitive kind)) ++ args.flatMap gist ++ blockGist [] block := by
  have hkind : sense (.primitive kind, kind.keyword) = sense (sign (.primitive kind)) := rfl
  rw [gist, spell]
  simp [hkind]

end parts

end Expr

namespace Stmt

variable {value : Expr}

@[simp] theorem gist_bind (name : String) :
    (bind name value).gist = sense (sign .letWord) ++ sense (.ident, name) ++ sense (sign .assign) ++ value.gist := by
  have hlet : sense (.letWord, "let") = sense (sign .letWord) := rfl
  rw [gist, Expr.spellStmt]
  simp [hlet]

@[simp] theorem gist_ret : (ret value).gist = sense (sign .returnWord) ++ value.gist := by
  have hreturn : sense (.returnWord, "return") = sense (sign .returnWord) := rfl
  rw [gist, Expr.spellStmt]
  simp [hreturn]

end Stmt

end SolidScript
