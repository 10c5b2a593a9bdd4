import SolidScript.Proofs.Token.Words

namespace SolidScript

namespace Position

-- Where a place of some text lies when the text is put on a new line below `text`.
def below (text : String) (p : Position) : Position where
  byte := text.utf8ByteSize + 1 + p.byte
  line := text.toList.count '\n' + 1 + p.line
  column := p.column

theorem next_below (text : String) (p : Position) (c : Char) : (p.below text).next c = (p.next c).below text := by
  unfold next
  by_cases hc : c = '\n'
  · simp [hc, below, Nat.add_assoc]
  · simp [hc, below, Nat.add_assoc]

theorem byte_after (p : Position) (run : List Char) :
    (p.after run).byte = p.byte + (String.ofList run).utf8ByteSize := by
  induction run generalizing p with
  | nil => simp
  | cons c run ih =>
    have hc : (p.next c).byte = p.byte + c.utf8Size := by
      unfold next
      split <;> rfl
    rw [after_cons, ih, hc, String.ofList_cons, String.utf8ByteSize_append, String.utf8ByteSize_singleton]
    omega

theorem line_after (p : Position) (run : List Char) : (p.after run).line = p.line + run.count '\n' := by
  induction run generalizing p with
  | nil => simp
  | cons c run ih =>
    rw [after_cons, ih]
    unfold next
    by_cases hc : c = '\n'
    · simp [hc]
      omega
    · simp [hc]

-- The first place below a text.
theorem after_line (text : String) : start.after (text.toList ++ ['\n']) = start.below text := by
  have hb := byte_after start text.toList
  have hl := line_after start text.toList
  rw [String.ofList_toList] at hb
  rw [after_append, after_cons, after_nil, next, if_pos rfl, hb, hl]
  simp only [start, below, mk.injEq, and_true]
  constructor
  · have hn : '\n'.utf8Size = 1 := by decide
    omega
  · omega

end Position

namespace Cursor

-- The same place with `more` on a new line below the text.
def above (more : List Char) (c : Cursor) : Cursor := { c with rest := c.rest ++ '\n' :: more }

theorem skip_above (more : List Char) {c : Cursor} {count : Nat} (h : count ≤ c.rest.length) :
    (c.above more).skip count = (c.skip count).above more := by
  simp [above, skip, List.take_append_of_le_length h, List.drop_append_of_le_length h]

end Cursor

namespace Token

def below (text : String) (t : Token) : Token := { t with position := t.position.below text }

namespace Lexeme

variable (more : List Char)

theorem takeWhile_line {p : Char → Bool} (h : p '\n' = false) (text : List Char) :
    (text ++ '\n' :: more).takeWhile p = text.takeWhile p := by
  induction text with
  | nil => simp [h]
  | cons c text ih => simp only [List.cons_append, List.takeWhile_cons, ih]

theorem fraction_line (text : List Char) : fraction (text ++ '\n' :: more) = fraction text := by
  unfold fraction
  split
  · rename_i rest hr
    cases text with
    | nil => simp at hr
    | cons c text =>
      obtain ⟨rfl, rfl⟩ := List.cons.inj hr
      simp [takeWhile_line]
  · rename_i hr
    cases text with
    | nil => rfl
    | cons c text =>
      split
      · rename_i heq
        exact absurd (by rw [heq]; rfl) (hr _)
      · rfl

theorem exponentSign_line (text : List Char) : exponentSign (text ++ '\n' :: more) = exponentSign text := by
  cases text with
  | nil => rfl
  | cons c text =>
    simp only [exponentSign, List.cons_append]
    split <;> simp_all

theorem length_exponentSign_le (text : List Char) : (exponentSign text).length ≤ text.length := by
  unfold exponentSign
  split <;> simp

theorem exponent_line (text : List Char) : exponent (text ++ '\n' :: more) = exponent text := by
  cases text with
  | nil => rfl
  | cons c text =>
    simp only [exponent, List.cons_append, exponentSign_line,
      List.drop_append_of_le_length (length_exponentSign_le text), takeWhile_line more (p := Char.isDigit) rfl]

-- The parts of a number are cut off from the front of the text.
theorem fraction_isPrefix (text : List Char) : fraction text <+: text := by
  unfold fraction
  split
  · exact (List.prefix_cons_inj _).2 (List.takeWhile_prefix _)
  · exact List.nil_prefix

theorem exponentSign_isPrefix (text : List Char) : exponentSign text <+: text := by
  unfold exponentSign
  split <;> simp

theorem isPrefix_append_drop {run more text : List Char} (hr : run <+: text) (hm : more <+: text.drop run.length) :
    run ++ more <+: text := by
  obtain ⟨tail, rfl⟩ := hr
  rw [List.drop_left] at hm
  exact (List.prefix_append_right_inj run).2 hm

theorem exponent_isPrefix (text : List Char) : exponent text <+: text := by
  cases text with
  | nil => exact List.nil_prefix
  | cons c rest =>
    unfold exponent
    dsimp only
    split
    · rw [List.cons_append, List.prefix_cons_inj]
      exact isPrefix_append_drop (exponentSign_isPrefix rest) (List.takeWhile_prefix _)
    · exact List.nil_prefix

theorem number_isPrefix (text : List Char) : (number text).literal <+: text := by
  have hp := isPrefix_append_drop (List.takeWhile_prefix Char.isDigit (l := text)) (fraction_isPrefix _)
  refine isPrefix_append_drop hp ?_
  rw [List.length_append]
  exact exponent_isPrefix _

theorem number_line (text : List Char) : number (text ++ '\n' :: more) = number text := by
  have hw := (List.takeWhile_prefix Char.isDigit (l := text))
  have hp := isPrefix_append_drop hw (fraction_isPrefix _)
  simp only [number, takeWhile_line more (p := Char.isDigit) rfl,
    List.drop_append_of_le_length hw.length_le, fraction_line]
  rw [← List.length_append, List.drop_append_of_le_length hp.length_le, exponent_line]

theorem string_line {text : List Char} (h : '"' ∈ text) : string (text ++ '\n' :: more) = string text := by
  have hl : (text.takeWhile (· != '"')).length < text.length := by
    by_contra hn
    have ht := (List.takeWhile_prefix (· != '"') (l := text)).eq_of_length_le (by omega)
    simpa using List.takeWhile_eq_self_iff.1 ht _ h
  have ht : (text ++ '\n' :: more).takeWhile (· != '"') = text.takeWhile (· != '"') := by
    rw [List.takeWhile_append, if_neg (by omega)]
  simp only [string, ht, List.length_append, mk.injEq, true_and]
  omega

theorem comment_line (text : List Char) : comment (text ++ '\n' :: more) = comment text := by
  simp only [comment, takeWhile_line more (p := (· != '\n')) rfl]

theorem word_line (text : List Char) : word (text ++ '\n' :: more) = word text := by
  simp only [word, takeWhile_line more (p := isWordPart) rfl]

-- A line feed ends whatever starts with `c`, unless it is inside a string.
theorem scan_line {c : Char} {rest : List Char} (h : (scan c rest).kind = .string → '"' ∈ rest) :
    scan c (rest ++ '\n' :: more) = scan c rest := by
  by_cases hd : c.isDigit
  · rw [scan_number hd, scan_number hd, ← List.cons_append, number_line]
  by_cases hw : isWordStart c
  · rw [scan_word hw, scan_word hw, ← List.cons_append, word_line]
  generalize hl : scan c rest = l at h ⊢
  unfold scan at hl
  split at hl
  case h_16 hrest | h_18 hrest | h_20 hrest =>
    -- the sign could be the first half of a longer one, but a line feed is not the second half
    rw [← hl]
    cases rest with
    | nil => rfl
    | cons d rest =>
      have hd := hrest rest
      unfold scan
      split <;> simp_all
  case h_19 text =>
    rw [← hl, ← comment_line more]
    rfl
  case h_21 =>
    rw [← hl] at h ⊢
    exact string_line more (h rfl)
  case h_22 =>
    rw [← hl]
    unfold scan
    split <;> simp_all
  all_goals exact hl

theorem tail_scan_le (c : Char) (rest : List Char) : (scan c rest).tail ≤ rest.length := by
  by_cases hd : c.isDigit
  · have hp := (number_isPrefix (c :: rest)).length_le
    rw [scan_number hd]
    simp only [number, List.length_cons] at hp ⊢
    omega
  by_cases hw : isWordStart c
  · have hp := (List.takeWhile_prefix isWordPart (l := c :: rest)).length_le
    rw [scan_word hw]
    simp only [word, List.length_cons] at hp ⊢
    omega
  unfold scan
  split
  case h_19 text =>
    have hp := (List.takeWhile_prefix (· != '\n') (l := text)).length_le
    simp only [comment, List.length_cons]
    omega
  case h_21 => exact Nat.min_le_right _ _
  case h_22 => simp [hd, hw, single]
  all_goals simp [single]

end Lexeme

theorem advanceWhile_above (more : List Char) {c : Cursor} (h : c.rest.dropWhile isBlank ≠ []) :
    (c.above more).advanceWhile isBlank = (c.advanceWhile isBlank).above more := by
  have hl : (c.rest.takeWhile isBlank).length < c.rest.length := by
    by_contra hn
    have ht := (List.takeWhile_prefix isBlank (l := c.rest)).eq_of_length_le (by omega)
    exact h (List.dropWhile_eq_nil_iff.2 (List.takeWhile_eq_self_iff.1 ht))
  have ht : (c.above more).run isBlank = c.run isBlank := by
    simp only [Cursor.run, Cursor.above]
    rw [List.takeWhile_append, if_neg (by omega)]
  unfold Cursor.advanceWhile
  rw [ht, Cursor.skip_above more]
  exact hl.le

theorem rest_of_eof {c : Cursor} (h : (next c).1.kind = .eof) : ∀ b ∈ c.rest, isBlank b := by
  have hr := rest_advanceWhile c isBlank
  unfold next at h
  dsimp only at h
  split at h
  · rename_i hn
    exact List.dropWhile_eq_nil_iff.1 (hr.symm.trans hn)
  · exact absurd h (kind_scan_ne_eof _ _)

theorem next_of_rest {c : Cursor} {d : Char} {rest : List Char} (h : (c.advanceWhile isBlank).rest = d :: rest) :
    next c = (⟨(Lexeme.scan d rest).kind, String.ofList (Lexeme.scan d rest).literal, (c.advanceWhile isBlank).position⟩,
      (c.advanceWhile isBlank).skip ((Lexeme.scan d rest).tail + 1)) := by
  unfold next
  simp only [h]

-- Only a string can be open at the end of a text, and it is the last token then.
theorem quote_mem_of_rest {c : Char} {rest : List Char} (hs : (Lexeme.scan c rest).kind = .string)
    (hr : rest.drop (Lexeme.scan c rest).tail ≠ []) : '"' ∈ rest := by
  unfold Lexeme.scan at hs hr
  split at hs
  case h_21 =>
    by_contra hq
    have ht : rest.takeWhile (· != '"') = rest := by
      rw [List.takeWhile_eq_self_iff]
      intro d hd
      simpa using fun hdq : d = '"' => hq (hdq ▸ hd)
    simp [Lexeme.string, ht] at hr
  case h_22 =>
    split at hs
    · unfold Lexeme.number at hs
      dsimp only at hs
      split at hs <;> cases hs
    · split at hs
      · exact absurd hs (Kind.ofWord_ne (by simp))
      · cases hs
  all_goals cases hs

-- A token ends where it ended before, unless it is a string that is still open.
theorem next_above (more : List Char) {c : Cursor} (h : (next c).1.kind ≠ .eof)
    (hs : (next c).1.kind = .string → (next c).2.rest ≠ []) :
    next (c.above more) = ((next c).1, (next c).2.above more) := by
  have hb : c.rest.dropWhile isBlank ≠ [] := by
    intro hn
    rw [← rest_advanceWhile] at hn
    unfold next at h
    simp [hn] at h
  obtain ⟨d, rest, hrest⟩ := List.exists_cons_of_ne_nil hb
  rw [← rest_advanceWhile] at hrest
  have hnext := next_of_rest hrest
  rw [hnext] at hs ⊢
  have hopen : (Lexeme.scan d rest).kind = .string → '"' ∈ rest := by
    intro hk
    have hr := hs hk
    simp only [Cursor.skip, hrest, List.drop_succ_cons] at hr
    exact quote_mem_of_rest hk hr
  have habove : ((c.above more).advanceWhile isBlank).rest = d :: (rest ++ '\n' :: more) := by
    rw [advanceWhile_above more hb, Cursor.above, hrest, List.cons_append]
  have hle : (Lexeme.scan d rest).tail + 1 ≤ (c.advanceWhile isBlank).rest.length := by
    have := Lexeme.tail_scan_le d rest
    rw [hrest, List.length_cons]
    omega
  rw [next_of_rest habove, Lexeme.scan_line more hopen, advanceWhile_above more hb, Cursor.skip_above more hle]
  rfl

-- Blanks in front of a token belong to no token.
theorem next_blanks {blanks : List Char} (h : ∀ b ∈ blanks, isBlank b) (passed rest : List Char) (p : Position) :
    next ⟨passed, blanks ++ rest, p⟩ = next ⟨blanks.reverse ++ passed, rest, p.after blanks⟩ := by
  have hskip : Cursor.advanceWhile ⟨passed, blanks ++ rest, p⟩ isBlank =
      Cursor.advanceWhile ⟨blanks.reverse ++ passed, rest, p.after blanks⟩ isBlank := by
    simp only [Cursor.advanceWhile, Cursor.run, Cursor.skip, List.takeWhile_append_of_pos h]
    simp [List.take_length_add_append, Position.after_append]
  unfold next
  rw [hskip]

theorem allFrom_of_next {c d : Cursor} (h : next c = next d) : allFrom c = allFrom d := by
  rw [allFrom]
  conv_rhs => rw [allFrom]
  rw [h]

theorem allFrom_ne_nil (c : Cursor) : allFrom c ≠ [] := by
  rw [allFrom]
  split <;> simp

theorem next_of_nil {c : Cursor} (h : c.rest = []) : (next c).1.kind = .eof := by
  have hr : (c.advanceWhile isBlank).rest = [] := by
    rw [rest_advanceWhile, h]
    rfl
  unfold next
  simp only [hr]

theorem position_next (c : Cursor) (more : List Char) :
    (next c).2.position.after ((next c).2.rest ++ more) = c.position.after (c.rest ++ more) := by
  have hskip (d : Cursor) (count : Nat) :
      (d.skip count).position.after ((d.skip count).rest ++ more) = d.position.after (d.rest ++ more) := by
    rw [Cursor.skip, ← Position.after_append, ← List.append_assoc, List.take_append_drop]
  unfold next
  dsimp only
  split
  · exact hskip c _
  · exact (hskip _ _).trans (hskip c _)

section moved

variable (move : Position → Position) (hmove : ∀ p c, (move p).next c = move (p.next c))
include hmove

theorem after_moved (p : Position) (run : List Char) : (move p).after run = move (p.after run) := by
  induction run generalizing p with
  | nil => rfl
  | cons c run ih => rw [Position.after_cons, Position.after_cons, hmove, ih]

theorem next_moved {c d : Cursor} (hr : d.rest = c.rest) (hp : d.position = move c.position) :
    (next d).1 = { (next c).1 with position := move (next c).1.position } ∧ (next d).2.rest = (next c).2.rest ∧
      (next d).2.position = move (next c).2.position := by
  have hskip {c d : Cursor} (hr : d.rest = c.rest) (hp : d.position = move c.position) (count : Nat) :
      (d.skip count).rest = (c.skip count).rest ∧ (d.skip count).position = move (c.skip count).position := by
    simp only [Cursor.skip, hr, hp, after_moved move hmove, and_self]
  have hrun : d.run isBlank = c.run isBlank := by rw [Cursor.run, hr, Cursor.run]
  obtain ⟨hrest, hposition⟩ : (d.advanceWhile isBlank).rest = (c.advanceWhile isBlank).rest ∧
      (d.advanceWhile isBlank).position = move (c.advanceWhile isBlank).position := by
    unfold Cursor.advanceWhile
    rw [hrun]
    exact hskip hr hp _
  unfold next
  simp only [hrest]
  split
  · exact ⟨by rw [hposition], hrest, hposition⟩
  · exact ⟨by rw [hposition], hskip hrest hposition _⟩

-- The tokens of the same text at another place.
theorem allFrom_moved {c d : Cursor} (hr : d.rest = c.rest) (hp : d.position = move c.position) :
    allFrom d = (allFrom c).map fun t => { t with position := move t.position } := by
  induction c using allFrom.induct generalizing d with
  | case1 c hc =>
    obtain ⟨ht, -, -⟩ := next_moved move hmove hr hp
    have hd : (next d).1.kind = .eof := by rw [ht]; exact hc
    rw [allFrom, if_pos hd, allFrom, if_pos hc, ht]
    rfl
  | case2 c hc ih =>
    obtain ⟨ht, hrest, hposition⟩ := next_moved move hmove hr hp
    have hd : (next d).1.kind ≠ .eof := by rw [ht]; exact hc
    rw [allFrom, if_neg hd, allFrom.eq_def c, if_neg hc, ih hrest hposition, ht]
    rfl

end moved

-- The tokens of a text with another text below it.
theorem allFrom_above (more : List Char) (c : Cursor)
    (h : ∀ t ∈ (allFrom c).dropLast.getLast?, t.kind ≠ .string) :
    allFrom (c.above more) = (allFrom c).dropLast ++ allFrom ⟨[], more, c.position.after (c.rest ++ ['\n'])⟩ := by
  induction c using allFrom.induct with
  | case1 c hc =>
    have hblank : ∀ b ∈ c.rest ++ ['\n'], isBlank b := by
      intro b hb
      rcases List.mem_append.1 hb with hb | hb
      · exact rest_of_eof hc b hb
      · rw [List.mem_singleton.1 hb]
        rfl
    have hnext := next_blanks hblank c.passed more c.position
    have habove : c.above more = ⟨c.passed, c.rest ++ ['\n'] ++ more, c.position⟩ := by simp [Cursor.above]
    have hmoved := allFrom_moved id (fun _ _ => rfl)
      (c := ⟨[], more, c.position.after (c.rest ++ ['\n'])⟩)
      (d := ⟨(c.rest ++ ['\n']).reverse ++ c.passed, more, c.position.after (c.rest ++ ['\n'])⟩) rfl rfl
    rw [allFrom.eq_def c, if_pos hc, List.dropLast_singleton, List.nil_append, habove, allFrom_of_next hnext, hmoved]
    exact List.map_id _
  | case2 c hc ih =>
    rw [allFrom.eq_def c, if_neg hc, List.dropLast_cons_of_ne_nil (allFrom_ne_nil _)] at h ⊢
    have hlast : (next c).1.kind = .string → (next c).2.rest ≠ [] := by
      intro hk hr
      have hend : (allFrom (next c).2).dropLast = [] := by
        rw [allFrom, if_pos (next_of_nil hr)]
        rfl
      exact h (next c).1 (by simp [hend]) hk
    have hrest : ∀ t ∈ (allFrom (next c).2).dropLast.getLast?, t.kind ≠ .string := by
      intro t ht
      refine h t ?_
      rw [Option.mem_def] at ht ⊢
      simp [List.getLast?_cons, ht]
    have habove := next_above more hc hlast
    rw [allFrom.eq_def (c.above more), habove, if_neg hc, ih hrest, position_next, List.cons_append]

theorem tokenize_below {a : String} (b : String) (h : ∀ t ∈ (tokenize a).dropLast.getLast?, t.kind ≠ .string) :
    tokenize (a ++ "\n" ++ b) = (tokenize a).dropLast ++ (tokenize b).map (below a) := by
  have habove : Cursor.ofString (a ++ "\n" ++ b) = (Cursor.ofString a).above b.toList := by
    simp [Cursor.ofString, Cursor.above]
  have hplace : (Cursor.ofString a).position.after ((Cursor.ofString a).rest ++ ['\n']) = Position.start.below a :=
    Position.after_line a
  have hb := allFrom_moved (Position.below a) (Position.next_below a) (c := .ofString b)
    (d := ⟨[], b.toList, Position.start.below a⟩) rfl rfl
  unfold tokenize
  rw [habove, allFrom_above _ _ h, hplace, hb]
  rfl

end Token

end SolidScript
