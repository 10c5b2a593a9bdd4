import SolidScript.Tree.Printer
import SolidScript.Proofs.Decimal.Numeral
import SolidScript.Proofs.Tree.Shape

namespace SolidScript

open Token (Word words sign)

namespace UnaryOp

def kind : UnaryOp → Token.Kind
  | not => .bang
  | negate => .minus

end UnaryOp

namespace BinaryOp

def kind : BinaryOp → Token.Kind
  | add => .plus
  | subtract => .minus
  | multiply => .asterisk
  | divide => .slash
  | lessThan => .lt
  | greaterThan => .gt
  | equal => .eq
  | notEqual => .notEq

end BinaryOp

def Stmt.spellTerminator : Stmt → List Word → List Word
  | expr _, rest => sign .semicolon :: rest
  | bind _ _, rest | ret _, rest => rest

namespace Expr

-- The words of a list of names, each with a comma in front, in front of `rest`.
def spellMoreNames : List String → List Word → List Word
  | [], rest => rest
  | name :: names, rest => sign .comma :: (.ident, name) :: spellMoreNames names rest

def spellNames : List String → List Word → List Word
  | [], rest => rest
  | name :: names, rest => (.ident, name) :: spellMoreNames names rest

mutual

-- The words of an expression in front of `rest`.
def spell : Expr → List Word → List Word
  | .ident name, rest => (.ident, name) :: rest
  | .int value, rest => (.int, toString value.toInt) :: rest
  | .float value, rest => (.float, Number.literal value) :: rest
  | .string text, rest => (.string, text) :: rest
  | .bool value, rest => (if value then (.trueWord, "true") else (.falseWord, "false")) :: rest
  | .undef, rest => (.undefWord, "undef") :: rest
  | .unary op right, rest => sign .lparen :: sign op.kind :: spell right (sign .rparen :: rest)
  | .binary left op right, rest =>
    sign .lparen :: spell left (sign op.kind :: spell right (sign .rparen :: rest))
  | .cond condition consequence alternative, rest =>
    (.ifWord, "if") :: sign .lparen :: spell condition (sign .rparen ::
      sign .lbrace :: spellStmts consequence (sign .rbrace :: spellElse alternative rest))
  | .function params body, rest =>
    (.functionWord, "function") :: sign .lparen :: spellNames params (sign .rparen ::
      sign .lbrace :: spellStmts body (sign .rbrace :: rest))
  | .call callee args, rest => spell callee (sign .lparen :: spellItems args (sign .rparen :: rest))
  | .array elements, rest => sign .lbracket :: spellItems elements (sign .rbracket :: rest)
  | .hash pairs, rest => sign .lbrace :: spellPairs pairs (sign .rbrace :: rest)
  | .index left key, rest =>
    sign .lparen :: spell left (sign .lbracket :: spell key (sign .rbracket :: sign .rparen :: rest))
  | .named name value, rest => (.ofWord name, name) :: sign .assign :: spell value rest
  | .primitive kind args body, rest =>
    (.primitive kind, kind.keyword) :: sign .lparen :: spellItems args (sign .rparen :: spellBody body rest)
termination_by structural e => e

def spellItems : List Expr → List Word → List Word
  | [], rest => rest
  | e :: es, rest => spell e (spellMoreItems es rest)
termination_by structural es => es

def spellMoreItems : List Expr → List Word → List Word
  | [], rest => rest
  | e :: es, rest => sign .comma :: spell e (spellMoreItems es rest)
termination_by structural es => es

def spellPairs : List (Expr × Expr) → List Word → List Word
  | [], rest => rest
  | (key, value) :: ps, rest => spell key (sign .colon :: spell value (spellMorePairs ps rest))
termination_by structural ps => ps

def spellMorePairs : List (Expr × Expr) → List Word → List Word
  | [], rest => rest
  | (key, value) :: ps, rest => sign .comma :: spell key (sign .colon :: spell value (spellMorePairs ps rest))
termination_by structural ps => ps

def spellElse : Option (List Stmt) → List Word → List Word
  | none, rest => rest
  | some block, rest => (.elseWord, "else") :: sign .lbrace :: spellStmts block (sign .rbrace :: rest)
termination_by structural b => b

def spellBody : Option (List Stmt) → List Word → List Word
  | none, rest => rest
  | some block, rest => sign .lbrace :: spellStmts block (sign .rbrace :: rest)
termination_by structural b => b

def spellStmts : List Stmt → List Word → List Word
  | [], rest => rest
  | [s], rest => spellStmt s rest
  | s :: t :: stmts, rest => spellStmt s (s.spellTerminator (spellStmts (t :: stmts) rest))
termination_by structural b => b

def spellStmt : Stmt → List Word → List Word
  | .bind name value, rest => (.letWord, "let") :: (.ident, name) :: sign .assign :: spell value (sign .semicolon :: rest)
  | .ret value, rest => (.returnWord, "return") :: spell value (sign .semicolon :: rest)
  | .expr value, rest => spell value rest
termination_by structural s => s

end

end Expr

namespace Token

theorem words_of_isWord (word : String) (h : isWord word) {rest : List Char} (hrest : Apart rest) :
    words (word.toList ++ rest) = (.ofWord word, word) :: words rest := by
  unfold isWord at h
  split at h
  · simp at h
  · rename_i c run hw
    simp only [Bool.and_eq_true, List.all_eq_true] at h
    have hs : String.ofList (c :: run) = word := by rw [← hw, String.ofList_toList]
    rw [hw, words_word h.1 h.2 hrest, hs]

section keywords

variable {rest : List Char} (hrest : Apart rest)
include hrest

theorem words_let : words ('l' :: 'e' :: 't' :: rest) = (.letWord, "let") :: words rest :=
  words_of_isWord "let" (by decide) hrest

theorem words_return : words ('r' :: 'e' :: 't' :: 'u' :: 'r' :: 'n' :: rest) = (.returnWord, "return") :: words rest :=
  words_of_isWord "return" (by decide) hrest

theorem words_if : words ('i' :: 'f' :: rest) = (.ifWord, "if") :: words rest :=
  words_of_isWord "if" (by decide) hrest

theorem words_else : words ('e' :: 'l' :: 's' :: 'e' :: rest) = (.elseWord, "else") :: words rest :=
  words_of_isWord "else" (by decide) hrest

theorem words_function : words ('f' :: 'u' :: 'n' :: 'c' :: 't' :: 'i' :: 'o' :: 'n' :: rest) =
    (.functionWord, "function") :: words rest :=
  words_of_isWord "function" (by decide) hrest

theorem words_true : words ('t' :: 'r' :: 'u' :: 'e' :: rest) = (.trueWord, "true") :: words rest :=
  words_of_isWord "true" (by decide) hrest

theorem words_false : words ('f' :: 'a' :: 'l' :: 's' :: 'e' :: rest) = (.falseWord, "false") :: words rest :=
  words_of_isWord "false" (by decide) hrest

theorem words_undef : words ('u' :: 'n' :: 'd' :: 'e' :: 'f' :: rest) = (.undefWord, "undef") :: words rest :=
  words_of_isWord "undef" (by decide) hrest

end keywords

theorem start_of_isWord {word : String} (h : isWord word) : ∃ c, word.toList.head? = some c ∧ c ≠ '=' := by
  unfold isWord at h
  split at h
  · simp at h
  · rename_i c run hw
    refine ⟨c, by simp [hw], ?_⟩
    rintro rfl
    simp [isWordStart] at h

theorem isWord_keyword (p : Primitive) : isWord p.keyword := by
  cases p <;> decide

theorem ofWord_keyword (p : Primitive) : Kind.ofWord p.keyword = .primitive p := by
  cases p <;> decide

theorem isWord_of_isArgumentName {word : String} (h : isArgumentName word) : isWord word := by
  simp only [isArgumentName, isName, Bool.or_eq_true, Bool.and_eq_true] at h
  rcases h with h | h
  · exact h.1
  · obtain ⟨p, hp⟩ := Option.isSome_iff_exists.1 h
    exact Primitive.keyword_of_ofKeyword? hp ▸ isWord_keyword p

theorem words_of_isName {name : String} (h : isName name) {rest : List Char} (hrest : Apart rest) :
    words (name.toList ++ rest) = (.ident, name) :: words rest := by
  simp only [isName, Bool.and_eq_true, beq_iff_eq] at h
  rw [words_of_isWord _ h.1 hrest, h.2]

-- A text that is read as `spelling` in front of whatever comes apart from it. It does not start with an equals sign,
-- which the sign in front of it could take.
structure SpelledAs (text : String) (spelling : List Word → List Word) : Prop where
  words : ∀ rest, Apart rest → words (text.toList ++ rest) = spelling (words rest)
  start : ∃ c, text.toList.head? = some c ∧ c ≠ '='

theorem words_binary (op : BinaryOp) (rest : List Char) :
    words (op.symbol.toList ++ ' ' :: rest) = sign op.kind :: words rest := by
  cases op <;> simp [BinaryOp.symbol, BinaryOp.kind]

theorem SpelledAs.words_unary {text : String} {spelling : List Word → List Word} (h : SpelledAs text spelling)
    (op : UnaryOp) {rest : List Char} (hrest : Apart rest) :
    Token.words (op.symbol.toList ++ (text.toList ++ rest)) = sign op.kind :: spelling (Token.words rest) := by
  have hw := h.words rest hrest
  cases op with
  | negate => simp [UnaryOp.symbol, UnaryOp.kind, hw]
  | not =>
    obtain ⟨c, hc, hne⟩ := h.start
    obtain ⟨run, ht⟩ := List.head?_eq_some_iff.1 hc
    rw [ht, List.cons_append] at hw
    simp [UnaryOp.symbol, UnaryOp.kind, ht, Token.words_bang _ hne, hw]

theorem toList_intercalate_cons (first : String) (texts : List String) :
    (", ".intercalate (first :: texts)).toList = first.toList ++ texts.flatMap fun text => ',' :: ' ' :: text.toList := by
  induction texts generalizing first with
  | nil => simp
  | cons text texts ih => simp [String.intercalate_cons_cons, ih]

-- How a list with commas is spelled, as a whole and behind its first element.
structure Listed {α : Type} (spell : α → List Word → List Word) (all more : List α → List Word → List Word) : Prop where
  all_nil : ∀ rest, all [] rest = rest
  all_cons : ∀ a as rest, all (a :: as) rest = spell a (more as rest)
  more_nil : ∀ rest, more [] rest = rest
  more_cons : ∀ a as rest, more (a :: as) rest = sign .comma :: spell a (more as rest)

namespace Listed

variable {α : Type} {spell : α → List Word → List Word} {all more : List α → List Word → List Word}
  {print : α → String} {as : List α} (rest : List Char)

theorem apart_more (texts : List String) (hrest : Apart rest) :
    Apart ((texts.flatMap fun text => ',' :: ' ' :: text.toList) ++ rest) := by
  cases texts with
  | nil => exact hrest
  | cons text texts => exact apart_of rfl _

theorem words_more (l : Listed spell all more) (h : ∀ a ∈ as, SpelledAs (print a) (spell a)) (hrest : Apart rest) :
    words (((as.map print).flatMap fun text => ',' :: ' ' :: text.toList) ++ rest) = more as (words rest) := by
  induction as with
  | nil => simp [l.more_nil]
  | cons a as ih =>
    have ha := (h a (by simp)).words _ (apart_more rest (as.map print) hrest)
    rw [ih fun b hb => h b (by simp [hb])] at ha
    simp [l.more_cons, ha]

theorem words_all (l : Listed spell all more) (h : ∀ a ∈ as, SpelledAs (print a) (spell a)) (hrest : Apart rest) :
    words ((", ".intercalate (as.map print)).toList ++ rest) = all as (words rest) := by
  cases as with
  | nil => simp [l.all_nil]
  | cons a as =>
    have hm := l.words_more rest (fun b (hb : b ∈ as) => h b (by simp [hb])) hrest
    rw [List.map_cons, toList_intercalate_cons, List.append_assoc, (h a (by simp)).words _ (apart_more rest _ hrest), hm,
      l.all_cons]

end Listed

end Token

namespace Expr

open Token (Apart SpelledAs Listed isName isWordPart isWordStart words_of_isWord words_of_isName start_of_isWord)

theorem spelledAs_name {name : String} (h : isName name) : SpelledAs name ((.ident, name) :: ·) where
  words _ hrest := words_of_isName h hrest
  start := start_of_isWord (by simp_all [isName])

theorem spelledAs_int {value : Int64} (h : 0 ≤ value.toInt) :
    SpelledAs (toString value.toInt) ((.int, toString value.toInt) :: ·) := by
  obtain ⟨c, whole, hl, hc, hd⟩ := Number.toList_int h
  refine ⟨fun rest hrest => ?_, c, by rw [hl]; rfl, ?_⟩
  · have hw := Token.words_number hc hd (.inl rfl) (.inl rfl) hrest
    simp only [List.append_nil] at hw
    rw [← hl, String.ofList_toList] at hw
    exact hw
  · rintro rfl
    simp at hc

theorem spelledAs_float {value : Float} (h : Number.IsPlain value) :
    SpelledAs (Number.literal value) ((.float, Number.literal value) :: ·) := by
  obtain ⟨c, whole, point, power, hl, hc, hd, hp, he, hne⟩ := Number.toList_literal h
  refine ⟨fun rest hrest => ?_, c, by rw [hl]; rfl, ?_⟩
  · have hw := Token.words_number hc hd hp he hrest
    rw [← hl, String.ofList_toList, hne] at hw
    exact hw
  · rintro rfl
    simp at hc

theorem spelledAs_string {text : String} (h : '"' ∉ text.toList) :
    SpelledAs (print (.string text)) ((.string, text) :: ·) := by
  refine ⟨fun rest _ => ?_, '"', by simp [print], by decide⟩
  have hw := Token.words_string h rest
  rw [String.ofList_toList] at hw
  simpa [print] using hw

theorem listed_names : Listed (fun name rest => (.ident, name) :: rest) spellNames spellMoreNames :=
  ⟨fun _ => rfl, fun _ _ _ => rfl, fun _ => rfl, fun _ _ _ => rfl⟩

theorem listed_items : Listed spell spellItems spellMoreItems :=
  ⟨fun _ => rfl, fun _ _ _ => rfl, fun _ => rfl, fun _ _ _ => rfl⟩

theorem listed_pairs : Listed (fun p rest => spell p.1 (sign .colon :: spell p.2 rest)) spellPairs spellMorePairs :=
  ⟨fun _ => rfl, fun _ _ _ => rfl, fun _ => rfl, fun _ _ _ => rfl⟩

theorem printEach_eq (es : List Expr) : printEach es = es.map print := by
  induction es with
  | nil => rfl
  | cons e es ih => simp [printEach, ih]

theorem printPairs_eq (ps : List (Expr × Expr)) :
    printPairs ps = ps.map fun p => p.1.print ++ ": " ++ p.2.print := by
  induction ps with
  | nil => rfl
  | cons p ps ih => simp [printPairs, ih]

theorem words_names {names : List String} (h : ∀ name ∈ names, isName name) (rest : List Char) (hrest : Apart rest) :
    words ((", ".intercalate names).toList ++ rest) = spellNames names (words rest) := by
  have hspelled : ∀ name ∈ names, SpelledAs (id name) ((.ident, name) :: ·) := fun name hn => spelledAs_name (h name hn)
  have := listed_names.words_all rest hspelled hrest
  rwa [List.map_id] at this

theorem words_items {es : List Expr} (h : ∀ e ∈ es, SpelledAs e.print (spell e)) (rest : List Char)
    (hrest : Apart rest) :
    words ((", ".intercalate (printEach es)).toList ++ rest) = spellItems es (words rest) := by
  rw [printEach_eq]
  exact listed_items.words_all rest h hrest

theorem spelledAs_pair {p : Expr × Expr} (hk : SpelledAs p.1.print (spell p.1)) (hv : SpelledAs p.2.print (spell p.2)) :
    SpelledAs (p.1.print ++ ": " ++ p.2.print) fun rest => spell p.1 (sign .colon :: spell p.2 rest) where
  words rest hrest := by
    simp [hk.words, hv.words, hrest, isWordPart, isWordStart]
  start := by
    obtain ⟨c, h, hc⟩ := hk.start
    exact ⟨c, by simp [h], hc⟩

theorem words_pairs {ps : List (Expr × Expr)}
    (h : ∀ p ∈ ps, SpelledAs p.1.print (spell p.1) ∧ SpelledAs p.2.print (spell p.2)) (rest : List Char)
    (hrest : Apart rest) :
    words ((", ".intercalate (printPairs ps)).toList ++ rest) = spellPairs ps (words rest) := by
  rw [printPairs_eq]
  exact listed_pairs.words_all rest (fun p hp => spelledAs_pair (h p hp).1 (h p hp).2) hrest

-- A statement is spelled alike with its semicolon and in front of one.
theorem words_stmt {s : Stmt} (hs : s.isShaped) (h : SpelledAs s.value.print (spell s.value)) {rest : List Char}
    (hrest : Apart rest) : words ((printStmt s).toList ++ rest) = spellStmt s (words rest) := by
  cases s with
  | bind name value =>
    replace h : SpelledAs value.print (spell value) := h
    simp [printStmt, spellStmt, Token.words_let, words_of_isName hs, h.words, isWordPart, isWordStart]
  | ret value =>
    replace h : SpelledAs value.print (spell value) := h
    simp [printStmt, spellStmt, Token.words_return, h.words, isWordPart, isWordStart]
  | expr value => exact h.words rest hrest

-- A block is spelled alike whatever blank stands between its statements.
theorem words_stmts (separator : String) {b : Char} (hb : separator.toList = [b]) (hblank : Token.isBlank b)
    {block : List Stmt} (hs : ∀ s ∈ block, s.isShaped) (h : ∀ s ∈ block, SpelledAs s.value.print (spell s.value))
    {rest : List Char} (hrest : Apart rest) :
    words ((separator.intercalate (printStmts block)).toList ++ rest) = spellStmts block (words rest) := by
  induction block with
  | nil => simp [printStmts, spellStmts]
  | cons s block ih =>
    have hw {rest : List Char} (hrest : Apart rest) := words_stmt (hs s (by simp)) (h s (by simp)) hrest
    cases block with
    | nil => simpa [printStmts, spellStmts] using hw hrest
    | cons t block =>
      specialize ih (fun s hm => hs s (by simp [hm])) (fun s hm => h s (by simp [hm]))
      have hne : ∃ text texts, printStmts (t :: block) = text :: texts := by
        cases block <;> simp [printStmts]
      obtain ⟨text, texts, ht⟩ := hne
      rw [printStmts, ht, String.intercalate_cons_cons, ← ht, spellStmts]
      generalize separator.intercalate (printStmts (t :: block)) = others at ih
      have hbl := Token.words_blank hblank (others.toList ++ rest)
      cases s with
      | expr value =>
        simp [Stmt.terminator, Stmt.spellTerminator, hb, hw, hbl, ih, isWordPart, isWordStart]
      | _ => simp [Stmt.terminator, Stmt.spellTerminator, hb, hw, hbl, ih, Token.apart_of_isBlank hblank, -Token.apart_cons]

theorem words_braced (block : List Stmt) (hs : ∀ s ∈ block, s.isShaped)
    (h : ∀ s ∈ block, SpelledAs s.value.print (spell s.value)) (rest : List Char) :
    words ((braced (printStmts block)).toList ++ rest) =
      sign .lbrace :: spellStmts block (sign .rbrace :: words rest) := by
  have hw (rest : List Char) (hrest : Apart rest) := words_stmts " " rfl rfl hs h hrest
  unfold braced
  split
  · rename_i he
    have hb : block = [] := by
      match block with
      | [] => rfl
      | [s] => simp [printStmts] at he
      | s :: t :: rest => simp [printStmts] at he
    simp [hb, spellStmts]
  · simp [hw, isWordPart, isWordStart, -String.toList_intercalate]

section optional

variable {block : Option (List Stmt)} (hs : ∀ s ∈ block.getD [], s.isShaped)
  (h : ∀ s ∈ block.getD [], SpelledAs s.value.print (spell s.value)) (rest : List Char)
include hs h

theorem words_else : words ((printBlock? " else " block).toList ++ rest) = spellElse block (words rest) := by
  cases block with
  | none => simp [printBlock?, spellElse]
  | some block => simp [printBlock?, spellElse, Token.words_else, words_braced block hs h, isWordPart, isWordStart]

theorem words_body : words ((printBlock? " " block).toList ++ rest) = spellBody block (words rest) := by
  cases block with
  | none => simp [printBlock?, spellBody]
  | some block => simp [printBlock?, spellBody, words_braced block hs h]

end optional

theorem spelledAs_print (e : Expr) (hs : everywhere isShaped e) (hw : everywhere isWritable e) :
    SpelledAs e.print (spell e) := by
  induction e using induction_children with
  | step e ih =>
    obtain ⟨hes, hcs⟩ := everywhere_iff.1 hs
    obtain ⟨hew, hcw⟩ := everywhere_iff.1 hw
    replace ih : ∀ c ∈ e.children, SpelledAs c.print (spell c) := fun c hc => ih c hc (hcs c hc) (hcw c hc)
    clear hcs hcw hs hw
    cases e with
    | ident name => exact spelledAs_name hes
    | int value => exact spelledAs_int (by simpa [isShaped] using hes)
    | float value =>
      simp only [isShaped, isWritable, Bool.and_eq_true, Bool.not_eq_eq_eq_not, Bool.not_true] at hes hew
      exact spelledAs_float ⟨hes.1, hew, hes.2⟩
    | string text => exact spelledAs_string fun hm => by simpa using List.all_eq_true.1 hes _ hm
    | bool value =>
      cases value with
      | false => exact ⟨fun rest hrest => Token.words_false hrest, 'f', rfl, by decide⟩
      | true => exact ⟨fun rest hrest => Token.words_true hrest, 't', rfl, by decide⟩
    | undef => exact ⟨fun rest hrest => Token.words_undef hrest, 'u', rfl, by decide⟩
    | unary op right =>
      have hr := ih right (by simp [children])
      refine ⟨fun rest _ => ?_, '(', by simp [print], by decide⟩
      simp [print, spell, hr.words_unary op, isWordPart, isWordStart]
    | binary left op right =>
      have hl := ih left (by simp [children])
      have hr := ih right (by simp [children])
      refine ⟨fun rest _ => ?_, '(', by simp [print], by decide⟩
      simp [print, spell, hl.words, hr.words, Token.words_binary op, isWordPart, isWordStart]
    | cond condition consequence alternative =>
      simp only [isShaped, Bool.and_eq_true, List.all_eq_true] at hes
      have hc := ih condition (by simp [children])
      have ht := words_braced _ hes.1 fun s hm => ih s.value (by
        simp only [children, List.map_append, List.mem_cons, List.mem_append]
        exact .inr (.inl (List.mem_map_of_mem hm)))
      have he := words_else hes.2 fun s hm => ih s.value (by
        simp only [children, List.map_append, List.mem_cons, List.mem_append]
        exact .inr (.inr (List.mem_map_of_mem hm)))
      refine ⟨fun rest _ => ?_, 'i', by simp [print], by decide⟩
      simp [print, spell, Token.words_if, hc.words, ht, he, isWordPart, isWordStart]
    | function params body =>
      simp only [isShaped, Bool.and_eq_true, List.all_eq_true] at hes
      have hp := words_names hes.1
      have hb := words_braced _ hes.2 fun s hm => ih s.value (List.mem_map_of_mem hm)
      refine ⟨fun rest hrest => ?_, 'f', by simp [print], by decide⟩
      simp [print, spell, Token.words_function, hp, hb, isWordPart, isWordStart, -String.toList_intercalate]
    | call callee args =>
      have hf := ih callee (by simp [children])
      have ha := words_items fun a (ha : a ∈ args) => ih a (by simp [children, ha])
      refine ⟨fun rest _ => ?_, ?_⟩
      · simp [print, spell, hf.words, ha, isWordPart, isWordStart, -String.toList_intercalate]
      · obtain ⟨c, h, hc⟩ := hf.start
        exact ⟨c, by simp [print, h], hc⟩
    | array elements =>
      have ha := words_items fun a (ha : a ∈ elements) => ih a ha
      refine ⟨fun rest _ => ?_, '[', by simp [print], by decide⟩
      simp [print, spell, ha, isWordPart, isWordStart, -String.toList_intercalate]
    | hash pairs =>
      have hp := words_pairs fun p (hp : p ∈ pairs) =>
        ⟨ih p.1 (by simp only [children, List.mem_flatMap]; exact ⟨p, hp, by simp⟩),
          ih p.2 (by simp only [children, List.mem_flatMap]; exact ⟨p, hp, by simp⟩)⟩
      refine ⟨fun rest _ => ?_, '\x7b', by simp [print], by decide⟩
      simp [print, spell, hp, isWordPart, isWordStart, -String.toList_intercalate]
    | index left key =>
      have hl := ih left (by simp [children])
      have hk := ih key (by simp [children])
      refine ⟨fun rest _ => ?_, '(', by simp [print], by decide⟩
      simp [print, spell, hl.words, hk.words, isWordPart, isWordStart]
    | named name value =>
      have hv := ih value (by simp [children])
      have hn := Token.isWord_of_isArgumentName hes
      refine ⟨fun rest hrest => ?_, ?_⟩
      · simp [print, spell, words_of_isWord _ hn, hv.words, hrest, isWordPart, isWordStart]
      · obtain ⟨c, h, hc⟩ := start_of_isWord hn
        exact ⟨c, by simp [print, h], hc⟩
    | primitive kind args body =>
      simp only [isShaped, Bool.and_eq_true, List.all_eq_true] at hes
      have ha := words_items fun a (ha : a ∈ args) => ih a (by simp [children, ha])
      have hb := words_body hes.2 fun s hm => ih s.value (by
        simp only [children, List.mem_append]
        exact .inr (List.mem_map_of_mem hm))
      have hk {rest : List Char} (hrest : Apart rest) := words_of_isWord _ (Token.isWord_keyword kind) hrest
      rw [Token.ofWord_keyword] at hk
      refine ⟨fun rest hrest => ?_, ?_⟩
      · simp [print, spell, hk, ha, hb, isWordPart, isWordStart, -String.toList_intercalate]
      · obtain ⟨c, h, hc⟩ := start_of_isWord (Token.isWord_keyword kind)
        exact ⟨c, by simp [print, h], hc⟩

end Expr

-- The words of a printed program.
theorem Program.words_print {program : Program} (hs : program.isShaped) (hw : program.isWritable) :
    words program.print.toList = Expr.spellStmts program [] := by
  simp only [Program.isShaped, Program.isWritable, Program.everywhere, Bool.and_eq_true, List.all_eq_true] at hs hw
  have := Expr.words_stmts "\n" rfl rfl hs.1 (fun s hm => Expr.spelledAs_print _ (hs.2 s hm) (hw s hm))
    Token.apart_nil
  simpa [Program.print, -String.toList_intercalate] using this

end SolidScript
