import SolidScript.Decimal.Reader
import SolidScript.Proofs.Token.Sound

namespace SolidScript

namespace Token

inductive Content where
  | int (value : Int64)
  | float (value : Float)
  | text (text : String)

-- A number that cannot be read counts by its text, as everything else does.
def content (w : Word) : Content :=
  match w.1 with
  | .int => ((Number.integer? w.2).map Content.int).getD (.text w.2)
  | .float => ((Number.ofText? w.2).map Content.float).getD (.text w.2)
  | _ => .text w.2

namespace Kind

def isLayout : Kind → Bool
  | lparen | rparen | comma | semicolon | comment | eof => true
  | _ => false

-- The text of a kind that has only one.
def spelling? : Kind → Option String
  | illegal | eof | comment | ident | int | float | string => none
  | functionWord => some "function"
  | letWord => some "let"
  | trueWord => some "true"
  | falseWord => some "false"
  | ifWord => some "if"
  | elseWord => some "else"
  | returnWord => some "return"
  | undefWord => some "undef"
  | primitive p => some p.keyword
  | kind => some kind.title

-- A word is a name, or it is the text of a keyword.
theorem ofWord_cases (word : String) :
    ofWord word = ident ∨ (ofWord word).spelling? = some word ∧ (ofWord word).isLayout = false := by
  unfold ofWord
  split
  case h_9 =>
    split
    · rename_i p hp
      exact .inr ⟨congrArg some (Primitive.keyword_of_ofKeyword? hp), rfl⟩
    · exact .inl rfl
  all_goals exact .inr ⟨rfl, rfl⟩

end Kind

def gist (tokens : List Token) : List (Kind × Content) :=
  (tokens.filter fun t => !t.kind.isLayout).map fun t => (t.kind, content t.word)

-- Signs and keywords have no other text than that of their kind.
def Spelled (w : Word) : Prop := ∀ text, w.1.spelling? = some text → w.2 = text

theorem spelled_word (word : String) : Spelled (.ofWord word, word) := by
  intro text ht
  rcases Kind.ofWord_cases word with hw | ⟨hw, -⟩
  · rw [hw] at ht
    cases ht
  · exact Option.some.inj (hw.symm.trans ht)

theorem spelled_number (text : List Char) :
    Spelled ((Lexeme.number text).kind, String.ofList (Lexeme.number text).literal) := by
  unfold Lexeme.number
  dsimp only
  split <;> exact nofun

theorem spelled_scan (c : Char) (rest : List Char) :
    Spelled ((Lexeme.scan c rest).kind, String.ofList (Lexeme.scan c rest).literal) := by
  unfold Lexeme.scan
  split
  case h_19 => exact nofun
  case h_21 => exact nofun
  case h_22 =>
    split
    · exact spelled_number _
    · split
      · exact spelled_word _
      · exact nofun
  all_goals exact fun _ => Option.some.inj

theorem spelled_next (cursor : Cursor) : Spelled (next cursor).1.word := by
  unfold next
  dsimp only
  split
  · exact nofun
  · exact spelled_scan _ _

theorem spelled_allFrom (cursor : Cursor) : ∀ t ∈ allFrom cursor, Spelled t.word := by
  induction cursor using allFrom.induct with
  | case1 cursor h =>
    rw [allFrom, if_pos h]
    simpa using spelled_next cursor
  | case2 cursor h ih =>
    rw [allFrom, if_neg h]
    simpa using ⟨spelled_next cursor, ih⟩

-- What the parser takes from a word. Of a sign or a keyword it only looks at the kind, and a name may turn out to be a
-- keyword.
def sense (w : Word) : List (Kind × Content) :=
  if w.1.isLayout then []
  else
    match w.1.spelling? with
    | some text => [(w.1, .text text)]
    | none => if w.1 = .ident then [(.ofWord w.2, .text w.2)] else [(w.1, content w)]

def senses (ws : List Word) : List (Kind × Content) := ws.flatMap sense

@[simp] theorem senses_nil : senses [] = [] := rfl

@[simp] theorem senses_cons (w : Word) (ws : List Word) : senses (w :: ws) = sense w ++ senses ws := List.flatMap_cons

@[simp] theorem senses_append (ws us : List Word) : senses (ws ++ us) = senses ws ++ senses us := List.flatMap_append

-- Of a sign or a keyword only the kind counts.
theorem sense_eq {w : Word} {kind : Kind} (h : w.1 = kind) (hk : kind.spelling?.isSome) : sense w = sense (sign kind) := by
  obtain ⟨text, ht⟩ := Option.isSome_iff_exists.1 hk
  simp only [sense, fst_sign, h, ht]

@[simp] theorem sense_lparen : sense (sign .lparen) = [] := rfl

@[simp] theorem sense_rparen : sense (sign .rparen) = [] := rfl

@[simp] theorem sense_comma : sense (sign .comma) = [] := rfl

@[simp] theorem sense_semicolon : sense (sign .semicolon) = [] := rfl

-- A keyword says what it says as a name.
theorem sense_ofWord (word : String) : sense (.ofWord word, word) = sense (.ident, word) := by
  have hname : sense (.ident, word) = [(.ofWord word, .text word)] := rfl
  rcases Kind.ofWord_cases word with hw | ⟨hw, hl⟩
  · rw [hw]
  · rw [hname]
    simp [sense, hw, hl]

theorem content_of_spelling? {w : Word} {text : String} (h : w.1.spelling? = some text) : content w = .text w.2 := by
  unfold content
  split
  · simp_all [Kind.spelling?]
  · simp_all [Kind.spelling?]
  · rfl

-- The names of a text are no keywords, so a token of a text says what the parser takes from it.
theorem sense_word {t : Token} (hs : Sound t.word) (hf : Spelled t.word) :
    sense t.word = if t.kind.isLayout then [] else [(t.kind, content t.word)] := by
  unfold sense
  change (if t.kind.isLayout then [] else _) = _
  split
  · rfl
  · cases hk : t.word.1.spelling? with
    | some text =>
      rw [content_of_spelling? hk, hf text hk]
      rfl
    | none =>
      by_cases hi : t.word.1 = .ident
      · have hname : isName t.word.2 := by
          rw [Sound, hi] at hs
          exact hs
        simp only [isName, Bool.and_eq_true, beq_iff_eq] at hname
        simp only [hi, if_true, hname.2, content]
        rw [← hi]
        rfl
      · simp only [hi, if_false]
        rfl

theorem senses_read (ws : List Word) : senses (read ws) = senses ws := by
  induction ws with
  | nil => rfl
  | cons w ws ih =>
    by_cases hw : w.1 = .comment ∨ w.1 = .eof
    · have hsense : sense w = [] := by rcases hw with hw | hw <;> simp [sense, hw, Kind.isLayout]
      have hread : read (w :: ws) = read ws := by rcases hw with hw | hw <;> simp [read, hw]
      rw [hread, ih, senses_cons, hsense, List.nil_append]
    · have hread : read (w :: ws) = w :: read ws := by simp_all [read]
      rw [hread, senses_cons, senses_cons, ih]

theorem gist_tokenize (source : String) : gist (tokenize source) = senses (words source.toList) := by
  have hall : ∀ t ∈ tokenize source, Sound t.word ∧ Spelled t.word :=
    fun t ht => ⟨sound_allFrom _ t ht, spelled_allFrom _ t ht⟩
  rw [← read_tokenize, senses_read]
  generalize tokenize source = tokens at hall
  induction tokens with
  | nil => rfl
  | cons t tokens ih =>
    obtain ⟨hs, hf⟩ := hall t List.mem_cons_self
    have hrest := ih fun t ht => hall t (List.mem_cons_of_mem _ ht)
    rw [List.map_cons, senses_cons, sense_word hs hf, ← hrest, gist, gist]
    by_cases hk : t.kind.isLayout <;> simp [hk]

end Token

end SolidScript
