import Mathlib.Tactic.Common
import Mathlib.Data.List.TakeWhile
import SolidScript.Token.Lexer

namespace SolidScript

namespace Token

-- A kind and the text of a token.
abbrev Word := Kind × String

def word (t : Token) : Word := (t.kind, t.literal)

-- A sign is called by its own text.
def sign (kind : Kind) : Word := (kind, kind.title)

@[simp] theorem fst_sign (kind : Kind) : (sign kind).1 = kind := rfl

-- The words that the parser gets to see: neither the comments nor the end of the text.
def read (words : List Word) : List Word := words.filter fun w => w.1 != .comment && w.1 != .eof

def words (text : List Char) : List Word := read ((allFrom ⟨[], text, .start⟩).map word)

theorem rest_advanceWhile (c : Cursor) (p : Char → Bool) : (c.advanceWhile p).rest = c.rest.dropWhile p := by
  simp only [Cursor.advanceWhile, Cursor.skip, Cursor.run]
  conv_lhs => rw [← List.takeWhile_append_dropWhile (p := p) (l := c.rest)]
  rw [List.drop_left' (by simp)]

-- The next token up to its place, and the text behind it.
theorem next_congr {c d : Cursor} (h : c.rest = d.rest) :
    (next c).1.word = (next d).1.word ∧ (next c).2.rest = (next d).2.rest := by
  have hr : (c.advanceWhile isBlank).rest = (d.advanceWhile isBlank).rest := by
    rw [rest_advanceWhile, rest_advanceWhile, h]
  unfold next
  simp only [hr]
  split
  · exact ⟨rfl, hr⟩
  · exact ⟨rfl, by simp only [Cursor.skip, hr]⟩

theorem map_word_allFrom {c d : Cursor} (h : c.rest = d.rest) : (allFrom c).map word = (allFrom d).map word := by
  induction c using allFrom.induct generalizing d with
  | case1 c hc =>
    obtain ⟨hw, -⟩ := next_congr h
    have hd : (next d).1.kind = .eof := (congrArg Prod.fst hw).symm.trans hc
    rw [allFrom, if_pos hc]
    conv_rhs => rw [allFrom, if_pos hd]
    simp [hw]
  | case2 c hc ih =>
    obtain ⟨hw, hr⟩ := next_congr h
    have hd : (next d).1.kind ≠ .eof := (congrArg Prod.fst hw).symm.trans_ne hc
    rw [allFrom, if_neg hc]
    conv_rhs => rw [allFrom, if_neg hd]
    simp [hw, ih hr]

theorem read_tokenize (source : String) : read ((tokenize source).map word) = words source.toList :=
  congrArg read (map_word_allFrom rfl)

theorem Kind.ofWord_ne {word : String} {kind : Kind} (h : kind ∈ [Kind.eof, .comment, .string, .float]) :
    Kind.ofWord word ≠ kind := by
  simp only [List.mem_cons, List.not_mem_nil, or_false] at h
  unfold Kind.ofWord
  rcases h with rfl | rfl | rfl | rfl
  all_goals
    split
    case h_9 => split <;> nofun
    all_goals nofun

-- Only the end of the text is the end of the text.
theorem kind_scan_ne_eof (c : Char) (rest : List Char) : (Lexeme.scan c rest).kind ≠ .eof := by
  unfold Lexeme.scan
  split
  case h_22 =>
    split
    · unfold Lexeme.number
      dsimp only
      split <;> nofun
    · split
      · exact Kind.ofWord_ne (by simp)
      · nofun
  all_goals nofun

theorem words_eq (text : List Char) :
    words text = match text.dropWhile isBlank with
      | [] => []
      | c :: rest => read [((Lexeme.scan c rest).kind, String.ofList (Lexeme.scan c rest).literal)] ++
          words (rest.drop (Lexeme.scan c rest).tail) := by
  have hr : (Cursor.advanceWhile ⟨[], text, .start⟩ isBlank).rest = text.dropWhile isBlank := rest_advanceWhile _ _
  rw [words, allFrom]
  simp only [next, hr]
  cases h : text.dropWhile isBlank with
  | nil => simp [word, read]
  | cons c rest =>
    simp only [if_neg (kind_scan_ne_eof c rest), List.map_cons]
    rw [words, read, read, read, ← List.filter_append, List.singleton_append]
    refine congrArg (fun ws => List.filter _ (_ :: ws)) (map_word_allFrom ?_)
    simp only [Cursor.skip, hr, h, List.drop_succ_cons]

@[simp] theorem words_nil : words [] = [] := words_eq []

theorem words_blank {b : Char} (hb : isBlank b) (text : List Char) : words (b :: text) = words text := by
  rw [words_eq, words_eq, List.dropWhile_cons_of_pos hb]

theorem words_scan {c : Char} {rest : List Char} (hc : isBlank c = false) (hk : (Lexeme.scan c rest).kind ≠ .comment) :
    words (c :: rest) = ((Lexeme.scan c rest).kind, String.ofList (Lexeme.scan c rest).literal) ::
      words (rest.drop (Lexeme.scan c rest).tail) := by
  rw [words_eq, List.dropWhile_cons_of_neg (by simp [hc])]
  simp [read, hk, kind_scan_ne_eof]

section punctuation

variable (text : List Char)

@[simp] theorem words_space : words (' ' :: text) = words text := words_blank rfl text

@[simp] theorem words_newline : words ('\n' :: text) = words text := words_blank rfl text

@[simp] theorem words_lparen : words ('(' :: text) = sign .lparen :: words text := words_scan rfl nofun

@[simp] theorem words_rparen : words (')' :: text) = sign .rparen :: words text := words_scan rfl nofun

@[simp] theorem words_lbracket : words ('[' :: text) = sign .lbracket :: words text := words_scan rfl nofun

@[simp] theorem words_rbracket : words (']' :: text) = sign .rbracket :: words text := words_scan rfl nofun

@[simp] theorem words_lbrace : words ('\x7b' :: text) = sign .lbrace :: words text := words_scan rfl nofun

@[simp] theorem words_rbrace : words ('\x7d' :: text) = sign .rbrace :: words text := words_scan rfl nofun

@[simp] theorem words_semicolon : words (';' :: text) = sign .semicolon :: words text := words_scan rfl nofun

@[simp] theorem words_comma : words (',' :: text) = sign .comma :: words text := words_scan rfl nofun

@[simp] theorem words_colon : words (':' :: text) = sign .colon :: words text := words_scan rfl nofun

@[simp] theorem words_plus : words ('+' :: text) = sign .plus :: words text := words_scan rfl nofun

@[simp] theorem words_minus : words ('-' :: text) = sign .minus :: words text := words_scan rfl nofun

@[simp] theorem words_asterisk : words ('*' :: text) = sign .asterisk :: words text := words_scan rfl nofun

@[simp] theorem words_lt : words ('<' :: text) = sign .lt :: words text := words_scan rfl nofun

@[simp] theorem words_gt : words ('>' :: text) = sign .gt :: words text := words_scan rfl nofun

@[simp] theorem words_eqEq : words ('=' :: '=' :: text) = sign .eq :: words text := words_scan rfl nofun

@[simp] theorem words_bangEq : words ('!' :: '=' :: text) = sign .notEq :: words text := words_scan rfl nofun

-- The signs that could be the first half of a longer one.
@[simp] theorem words_assign_space : words ('=' :: ' ' :: text) = sign .assign :: words (' ' :: text) :=
  words_scan rfl nofun

@[simp] theorem words_slash_space : words ('/' :: ' ' :: text) = sign .slash :: words (' ' :: text) :=
  words_scan rfl nofun

theorem words_bang {c : Char} (hc : c ≠ '=') : words ('!' :: c :: text) = sign .bang :: words (c :: text) := by
  have hs : Lexeme.scan '!' (c :: text) = .single .bang '!' := by
    unfold Lexeme.scan
    split <;> simp_all
  rw [words_scan rfl (by rw [hs]; nofun), hs]
  rfl

end punctuation

-- A text that cannot go on with a word or a number.
def Apart (rest : List Char) : Prop := ∀ c ∈ rest.head?, isWordPart c = false ∧ c ≠ '.'

@[simp] theorem apart_nil : Apart [] := nofun

@[simp] theorem apart_cons {c : Char} {rest : List Char} : Apart (c :: rest) ↔ isWordPart c = false ∧ c ≠ '.' := by
  simp [Apart]

theorem apart_of {c : Char} (h : (isWordPart c || c == '.') = false) (rest : List Char) : Apart (c :: rest) := by
  simpa using h

theorem isWordPart_of_isDigit {c : Char} (h : c.isDigit) : isWordPart c := by
  simp [isWordPart, h]

theorem isWordPart_of_isWordStart {c : Char} (h : isWordStart c) : isWordPart c := by
  simp [isWordPart, h]

-- The accepted characters in front of a text that does not start with one more.
theorem takeWhile_append_apart {p : Char → Bool} {run rest : List Char} (hrun : ∀ c ∈ run, p c)
    (hrest : ∀ c ∈ rest.head?, p c = false) : (run ++ rest).takeWhile p = run := by
  rw [List.takeWhile_append_of_pos hrun]
  cases rest with
  | nil => simp
  | cons c rest => simp [hrest c rfl]

theorem Apart.isDigit {rest : List Char} (h : Apart rest) : ∀ c ∈ rest.head?, c.isDigit = false := by
  intro c hc
  by_contra hd
  have hp := isWordPart_of_isDigit (by simpa using hd : c.isDigit)
  simp [(h c hc).1] at hp

theorem isDigit_of_isWordStart {c : Char} (h : isWordStart c) : c.isDigit = false := by
  have hletter : c.isAlpha = (decide (c.val ≥ 'A'.val ∧ c.val ≤ 'Z'.val) || (c.val ≥ 'a'.val && c.val ≤ 'z'.val)) := rfl
  simp only [isWordStart, hletter, Bool.or_eq_true, Bool.and_eq_true, decide_eq_true_eq, beq_iff_eq] at h
  simp only [Char.isDigit, Bool.and_eq_false_iff, decide_eq_false_iff_not]
  rcases h with (h | h) | h
  · simp only [UInt32.le_iff_toNat_le] at h ⊢
    have h1 : (48 : UInt32).toNat = 48 := rfl
    grind
  · subst h; decide
  · subst h; decide

theorem scan_word {c : Char} (h : isWordStart c) (rest : List Char) :
    Lexeme.scan c rest = Lexeme.word (c :: rest) := by
  unfold Lexeme.scan
  split
  case h_22 => simp [isDigit_of_isWordStart h, h]
  all_goals simp [isWordStart] at h

theorem scan_number {c : Char} (h : c.isDigit) (rest : List Char) :
    Lexeme.scan c rest = Lexeme.number (c :: rest) := by
  unfold Lexeme.scan
  split
  case h_22 => simp [h]
  all_goals simp [Char.isDigit] at h

theorem isBlank_of_isWordPart {c : Char} (h : isWordPart c) : isBlank c = false := by
  by_contra hb
  simp only [isBlank, Bool.not_eq_false, Bool.or_eq_true, beq_iff_eq] at hb
  rcases hb with ((rfl | rfl) | rfl) | rfl <;> simp [isWordPart, isWordStart] at h

theorem apart_of_isBlank {b : Char} (hb : isBlank b) (rest : List Char) : Apart (b :: rest) := by
  simp only [isBlank, Bool.or_eq_true, beq_iff_eq] at hb
  rcases hb with ((rfl | rfl) | rfl) | rfl <;> exact apart_of rfl rest

-- A word is read up to where it ends.
theorem words_word {c : Char} {run rest : List Char} (hc : isWordStart c) (hrun : ∀ d ∈ run, isWordPart d)
    (hrest : Apart rest) : words (c :: run ++ rest) =
      (.ofWord (String.ofList (c :: run)), String.ofList (c :: run)) :: words rest := by
  have hl : (c :: (run ++ rest)).takeWhile isWordPart = c :: run := by
    rw [← List.cons_append]
    refine takeWhile_append_apart ?_ fun d hd => (hrest d hd).1
    simpa [isWordPart_of_isWordStart hc] using hrun
  have hk : (Lexeme.scan c (run ++ rest)).kind ≠ .comment := by
    rw [scan_word hc]
    exact Kind.ofWord_ne (by simp)
  rw [List.cons_append, words_scan (isBlank_of_isWordPart (isWordPart_of_isWordStart hc)) hk, scan_word hc]
  simp only [Lexeme.word, hl, List.length_cons, Nat.add_sub_cancel, List.drop_left]

theorem words_string {text : List Char} (h : '"' ∉ text) (rest : List Char) :
    words ('"' :: text ++ '"' :: rest) = (.string, String.ofList text) :: words rest := by
  have hl : (text ++ '"' :: rest).takeWhile (· != '"') = text := by
    refine takeWhile_append_apart (fun c hc => ?_) (by simp)
    simpa using fun hq : c = '"' => h (hq ▸ hc)
  have hs : Lexeme.scan '"' (text ++ '"' :: rest) = Lexeme.string (text ++ '"' :: rest) := rfl
  rw [List.cons_append, words_scan rfl (by rw [hs]; nofun), hs]
  simp only [Lexeme.string, hl]
  congr 2
  rw [Nat.min_eq_left (by simp)]
  simp [List.drop_append]

-- The parts of a number behind its first digits, as they are written.
def IsFraction (text : List Char) : Prop := text = [] ∨ ∃ digits, text = '.' :: digits ∧ ∀ c ∈ digits, c.isDigit

def IsExponent (text : List Char) : Prop :=
  text = [] ∨ ∃ sign digits, text = 'e' :: sign ++ digits ∧ (sign = [] ∨ sign = ['-']) ∧ digits ≠ [] ∧
    ∀ c ∈ digits, c.isDigit

theorem fraction_append {point rest : List Char} (hp : IsFraction point)
    (hrest : ∀ c ∈ rest.head?, c.isDigit = false ∧ c ≠ '.') :
    Lexeme.fraction (point ++ rest) = point := by
  rcases hp with rfl | ⟨digits, rfl, hd⟩
  · unfold Lexeme.fraction
    split
    · rename_i rest' h
      simp at h
      simp [h] at hrest
    · rfl
  · simp only [List.cons_append, Lexeme.fraction]
    rw [takeWhile_append_apart hd fun c hc => (hrest c hc).1]

theorem exponent_append {power rest : List Char} (hp : IsExponent power) (hrest : Apart rest) :
    Lexeme.exponent (power ++ rest) = power := by
  rcases hp with rfl | ⟨sign, digits, rfl, hs, hne, hd⟩
  · cases rest with
    | nil => rfl
    | cons c rest =>
      have hc : ¬ (c = 'e' ∨ c = 'E') := by
        rintro (rfl | rfl) <;> simp [isWordPart, isWordStart] at hrest
      simp [Lexeme.exponent, hc]
  · have he : Lexeme.exponentSign (sign ++ digits ++ rest) = sign := by
      rcases hs with rfl | rfl
      · obtain ⟨d, ds, rfl⟩ := List.exists_cons_of_ne_nil hne
        have hd := hd d (by simp)
        simp only [List.nil_append, List.cons_append, Lexeme.exponentSign]
        split <;> simp_all [Char.isDigit]
      · rfl
    have hc : 'e' :: sign ++ digits ++ rest = 'e' :: (sign ++ digits ++ rest) := rfl
    rw [hc, Lexeme.exponent, if_pos (.inl rfl)]
    dsimp only
    rw [he, List.append_assoc, List.drop_left, takeWhile_append_apart hd hrest.isDigit]

theorem IsExponent.head {power rest : List Char} (hp : IsExponent power) (hrest : Apart rest) :
    ∀ c ∈ (power ++ rest).head?, c.isDigit = false ∧ c ≠ '.' := by
  rcases hp with rfl | ⟨sign, digits, rfl, -⟩
  · exact fun c hc => ⟨hrest.isDigit c hc, (hrest c hc).2⟩
  · simp [Char.isDigit]

theorem IsFraction.head {point rest : List Char} (hp : IsFraction point) (hrest : ∀ c ∈ rest.head?, c.isDigit = false) :
    ∀ c ∈ (point ++ rest).head?, c.isDigit = false := by
  rcases hp with rfl | ⟨digits, rfl, -⟩
  · exact hrest
  · simp [Char.isDigit]

-- A number is read up to where it ends.
theorem words_number {c : Char} {whole point power rest : List Char} (hc : c.isDigit) (hw : ∀ d ∈ whole, d.isDigit)
    (hp : IsFraction point) (he : IsExponent power) (hrest : Apart rest) :
    words (c :: whole ++ point ++ power ++ rest) =
      (if point.isEmpty && power.isEmpty then .int else .float, String.ofList (c :: whole ++ point ++ power)) ::
        words rest := by
  have hr := he.head hrest
  have hl : (c :: (whole ++ point ++ power ++ rest)).takeWhile Char.isDigit = c :: whole := by
    have hrun : ∀ d ∈ c :: whole, d.isDigit := by simpa [hc] using hw
    have := takeWhile_append_apart hrun (hp.head fun d hd => (hr d hd).1)
    simpa using this
  have hf : (c :: (whole ++ point ++ power ++ rest)).drop (c :: whole).length = point ++ (power ++ rest) := by
    simp
  have hx : (c :: (whole ++ point ++ power ++ rest)).drop ((c :: whole).length + point.length) = power ++ rest := by
    rw [← List.drop_drop, hf, List.drop_left]
  have hn : Lexeme.number (c :: (whole ++ point ++ power ++ rest)) =
      ⟨if point.isEmpty && power.isEmpty then .int else .float, c :: whole ++ point ++ power,
        (whole ++ point ++ power).length⟩ := by
    simp only [Lexeme.number, hl, hf, hx, fraction_append hp hr, exponent_append he hrest]
    simp
  have hs : c :: whole ++ point ++ power ++ rest = c :: (whole ++ point ++ power ++ rest) := by simp
  have hk : (Lexeme.scan c (whole ++ point ++ power ++ rest)).kind ≠ .comment := by
    rw [scan_number hc, hn]
    dsimp only
    split <;> nofun
  rw [hs, words_scan (isBlank_of_isWordPart (isWordPart_of_isDigit hc)) hk, scan_number hc, hn]
  simp only [List.drop_left]

end Token

end SolidScript
