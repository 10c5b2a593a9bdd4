import Mathlib.Data.List.Induction
import SolidScript.Proofs.Token.Lines

namespace SolidScript

namespace Position

-- The place behind a text, by what the text holds as a whole.
structure IsBehind (p : Position) (before : List Char) : Prop where
  byte : p.byte = (String.ofList before).utf8ByteSize
  line : p.line = 1 + before.count '\n'
  column : p.column = 1 + (before.reverse.takeWhile (· != '\n')).length

theorem column_after (run : List Char) :
    (start.after run).column = 1 + (run.reverse.takeWhile (· != '\n')).length := by
  -- from the end, because the last line feed is what counts
  induction run using List.reverseRecOn with
  | nil => rfl
  | append_singleton run c ih =>
    rw [after_append, after_cons, after_nil, next, List.reverse_append, List.reverse_singleton, List.singleton_append]
    by_cases hc : c = '\n'
    · simp [hc]
    · rw [if_neg hc, List.takeWhile_cons_of_pos (by simpa using hc), List.length_cons, ih]
      rfl

theorem isBehind_after (before : List Char) : (start.after before).IsBehind before where
  byte := by simp [byte_after, start]
  line := by rw [line_after, start]
  column := column_after before

end Position

namespace Cursor

theorem skip_ofString (source : String) (count : Nat) :
    (ofString source).skip count =
      ⟨(source.toList.take count).reverse, source.toList.drop count, Position.start.after (source.toList.take count)⟩ := by
  simp [skip, ofString]

-- A cursor stands between two characters.
theorem isValid_skip (source : String) (count : Nat) :
    String.Pos.Raw.IsValid source ⟨((ofString source).skip count).position.byte⟩ := by
  rw [String.Pos.Raw.isValid_iff_exists_take_toList, skip_ofString]
  exact ⟨count, (Position.isBehind_after _).byte⟩

end Cursor

-- What stands between two parts of a text, cut out of its bytes.
theorem exists_extract_of_append {source : String} {before run behind : List Char}
    (h : source.toList = before ++ run ++ behind) :
    ∃ first last : source.Pos, first.offset.byteIdx = (String.ofList before).utf8ByteSize ∧
      String.extract first last = String.ofList run := by
  have hfirst : source = String.ofList before ++ (String.ofList run ++ String.ofList behind) := by
    rw [← String.ofList_toList (s := source), h]
    simp
  have hlast : source = String.ofList before ++ String.ofList run ++ String.ofList behind := by
    rw [hfirst, String.append_assoc]
  have hf := String.Pos.splits_ofEqAppend hfirst
  have hl := String.Pos.splits_ofEqAppend hlast
  obtain ⟨hle, hcopy⟩ := String.copy_slice_eq_iff_splits.2 ⟨_, _, hf, hl⟩
  refine ⟨.ofEqAppend hfirst, .ofEqAppend hlast, ?_, ?_⟩
  · rw [hf.offset_eq_rawEndPos]
    rfl
  · rw [String.extract_eq_copy_slice _ _ hle, hcopy]

namespace Token

-- The marks in front of the literal of a token.
def Kind.opening : Kind → List Char
  | comment => ['/', '/']
  | string => ['"']
  | _ => []

-- How a token is written, with `behind` as the rest of the text.
inductive Written (t : Token) : (raw behind : List Char) → Prop
  | plain {behind : List Char} : t.kind ≠ .comment → t.kind ≠ .string → Written t t.literal.toList behind
  | comment {behind : List Char} : t.kind = .comment → Written t ('/' :: '/' :: t.literal.toList) behind
  | string {behind : List Char} : t.kind = .string → Written t ('"' :: t.literal.toList ++ ['"']) behind
  | openString : t.kind = .string → Written t ('"' :: t.literal.toList) []

-- The tokens of `text`, which stands behind `before`.
inductive Tiles : (before text : List Char) → List Token → Prop
  | last {before gap : List Char} {t : Token} : (∀ b ∈ gap, isBlank b) → t.kind = .eof → t.literal = "" →
      t.position.IsBehind (before ++ gap) → Tiles before gap [t]
  | token {before gap raw behind : List Char} {t : Token} {ts : List Token} : (∀ b ∈ gap, isBlank b) → t.kind ≠ .eof →
      Written t raw behind → t.position.IsBehind (before ++ gap) → Tiles (before ++ gap ++ raw) behind ts →
      Tiles before (gap ++ raw ++ behind) (t :: ts)

theorem Written.eq_append {t : Token} {raw behind : List Char} (h : t.Written raw behind) :
    ∃ closing, raw = t.kind.opening ++ t.literal.toList ++ closing := by
  cases h with
  | plain hc hs =>
    refine ⟨[], ?_⟩
    unfold Kind.opening
    split <;> simp_all
  | comment hk => exact ⟨[], by simp [hk, Kind.opening]⟩
  | string hk => exact ⟨['"'], by simp [hk, Kind.opening]⟩
  | openString hk => exact ⟨[], by simp [hk, Kind.opening]⟩

-- Literals are cut out of the text between two characters.
theorem Tiles.exists_extract {source : String} {before text : List Char} {ts : List Token} (h : Tiles before text ts)
    (hs : source.toList = before ++ text) {t : Token} (ht : t ∈ ts) :
    ∃ first last : source.Pos, first.offset.byteIdx = t.position.byte + t.kind.opening.length ∧
      String.extract first last = t.literal := by
  induction h with
  | @last before gap u hgap hk hl hp =>
    obtain rfl := List.mem_singleton.1 ht
    have hsplit : source.toList = before ++ gap ++ [] ++ [] := by simpa using hs
    obtain ⟨first, last, hf, he⟩ := exists_extract_of_append hsplit
    exact ⟨first, last, by rw [hf, hp.byte, hk]; rfl, by rw [he, hl]⟩
  | @token before gap raw behind u ts hgap hk hw hp htiles ih =>
    rcases List.mem_cons.1 ht with rfl | ht
    · obtain ⟨closing, hraw⟩ := hw.eq_append
      have hsplit : source.toList = before ++ gap ++ t.kind.opening ++ t.literal.toList ++ (closing ++ behind) := by
        simp [hs, hraw]
      obtain ⟨first, last, hf, he⟩ := exists_extract_of_append hsplit
      refine ⟨first, last, ?_, by rw [he, String.ofList_toList]⟩
      have hone : (String.ofList t.kind.opening).utf8ByteSize = t.kind.opening.length := by
        unfold Kind.opening
        split <;> decide
      rw [hf, hp.byte, String.ofList_append, String.utf8ByteSize_append, hone]
    · exact ih (by simpa using hs) ht

namespace Lexeme

theorem take_tail_number {c : Char} (hc : c.isDigit) (rest : List Char) :
    c :: rest.take (number (c :: rest)).tail = (number (c :: rest)).literal := by
  have hpos : 0 < (number (c :: rest)).literal.length := by
    simp [number, List.takeWhile_cons_of_pos hc]
  have htail : (number (c :: rest)).tail = (number (c :: rest)).literal.length - 1 := rfl
  rw [← List.take_succ_cons, htail, Nat.sub_add_cancel hpos]
  exact (List.prefix_iff_eq_take.1 (number_isPrefix _)).symm

theorem take_tail_word {c : Char} (hc : isWordStart c) (rest : List Char) :
    c :: rest.take (word (c :: rest)).tail = (word (c :: rest)).literal := by
  have hpos : 0 < (word (c :: rest)).literal.length := by
    simp [word, List.takeWhile_cons_of_pos (isWordPart_of_isWordStart hc)]
  have htail : (word (c :: rest)).tail = (word (c :: rest)).literal.length - 1 := rfl
  rw [← List.take_succ_cons, htail, Nat.sub_add_cancel hpos]
  exact (List.prefix_iff_eq_take.1 (List.takeWhile_prefix _)).symm

theorem take_tail_comment (text : List Char) :
    ('/' :: text).take (comment text).tail = '/' :: (comment text).literal := by
  simp only [comment, List.take_succ_cons]
  rw [← List.prefix_iff_eq_take.1 (List.takeWhile_prefix _)]

-- A string ends with a quote or with the text.
theorem take_tail_string (text : List Char) :
    text.take (string text).tail = (string text).literal ++ ['"'] ∨
      (text.take (string text).tail = (string text).literal ∧ text.drop (string text).tail = []) := by
  have hsplit := List.takeWhile_append_dropWhile (p := (· != '"')) (l := text)
  cases hd : text.dropWhile (· != '"') with
  | nil =>
    rw [hd, List.append_nil] at hsplit
    refine .inr ?_
    simp [string, hsplit]
  | cons q more =>
    have hq : q = '"' := by
      have := List.head?_dropWhile_not (· != '"') text
      simpa [hd] using this
    subst hq
    rw [hd] at hsplit
    have htail : (string text).tail = (string text).literal.length + 1 := by
      have hl := congrArg List.length hsplit
      simp only [List.length_append, List.length_cons] at hl
      simp only [string]
      omega
    refine .inl ?_
    rw [htail]
    generalize hliteral : (string text).literal = literal
    have hrun : text.takeWhile (· != '"') = literal := hliteral
    rw [← hsplit, hrun, List.take_append, List.take_of_length_le (by omega)]
    simp

end Lexeme

theorem written_scan (c : Char) (rest : List Char) (p : Position) :
    Written ⟨(Lexeme.scan c rest).kind, String.ofList (Lexeme.scan c rest).literal, p⟩
      (c :: rest.take (Lexeme.scan c rest).tail) (rest.drop (Lexeme.scan c rest).tail) := by
  have hplain {l : Lexeme} {raw behind : List Char} (hk : l.kind ≠ .comment ∧ l.kind ≠ .string) (hr : raw = l.literal) :
      Written ⟨l.kind, String.ofList l.literal, p⟩ raw behind := by
    have h : Written ⟨l.kind, String.ofList l.literal, p⟩ _ behind := .plain hk.1 hk.2
    rw [String.toList_ofList] at h
    exact hr ▸ h
  by_cases hd : c.isDigit
  · have hk : (Lexeme.number (c :: rest)).kind ≠ .comment ∧ (Lexeme.number (c :: rest)).kind ≠ .string := by
      unfold Lexeme.number
      dsimp only
      split <;> exact ⟨nofun, nofun⟩
    rw [scan_number hd]
    exact hplain hk (Lexeme.take_tail_number hd rest)
  by_cases hw : isWordStart c
  · rw [scan_word hw]
    exact hplain ⟨Kind.ofWord_ne (by simp), Kind.ofWord_ne (by simp)⟩ (Lexeme.take_tail_word hw rest)
  unfold Lexeme.scan
  split
  case h_19 text =>
    have h : Written ⟨.comment, String.ofList (Lexeme.comment text).literal, p⟩ _
      (('/' :: text).drop (Lexeme.comment text).tail) := .comment rfl
    rwa [String.toList_ofList, ← Lexeme.take_tail_comment] at h
  case h_21 =>
    have hclosed : Written ⟨.string, String.ofList (Lexeme.string rest).literal, p⟩ _
      (rest.drop (Lexeme.string rest).tail) := .string rfl
    have hopen : Written ⟨.string, String.ofList (Lexeme.string rest).literal, p⟩ _ [] := .openString rfl
    rw [String.toList_ofList] at hclosed hopen
    rcases Lexeme.take_tail_string rest with ht | ⟨ht, hb⟩
    · rwa [List.cons_append, ← ht] at hclosed
    · rw [ht, hb]
      exact hopen
  case h_22 =>
    rw [if_neg hd, if_neg hw]
    exact hplain ⟨nofun, nofun⟩ rfl
  all_goals exact hplain ⟨nofun, nofun⟩ rfl

theorem advanceWhile_eq (c : Cursor) (p : Char → Bool) :
    c.advanceWhile p =
      ⟨(c.rest.takeWhile p).reverse ++ c.passed, c.rest.dropWhile p, c.position.after (c.rest.takeWhile p)⟩ := by
  have hrest := rest_advanceWhile c p
  have htake := List.prefix_iff_eq_take.1 (List.takeWhile_prefix p (l := c.rest))
  simp only [Cursor.advanceWhile, Cursor.skip, Cursor.run] at hrest ⊢
  rw [← htake, hrest]

theorem Tiles.eof {c : Cursor} (hc : c.Placed) (h : (next c).1.kind = .eof) :
    Tiles c.passed.reverse c.rest [(next c).1] := by
  have hblank := rest_of_eof h
  have hdrop : c.rest.dropWhile isBlank = [] := List.dropWhile_eq_nil_iff.2 hblank
  have htake : c.rest.takeWhile isBlank = c.rest := List.takeWhile_eq_self_iff.2 hblank
  have hnext : (next c).1 = ⟨.eof, "", c.position.after c.rest⟩ := by
    unfold next
    simp only [advanceWhile_eq, hdrop, htake]
  rw [hnext]
  refine .last hblank rfl rfl ?_
  rw [show c.position = _ from hc, ← Position.after_append]
  exact Position.isBehind_after _

-- A token behind the blanks in front of it, and where it leaves the cursor.
theorem exists_next {c : Cursor} (h : (next c).1.kind ≠ .eof) :
    ∃ blanks d rest, (∀ b ∈ blanks, isBlank b) ∧ isBlank d = false ∧ c.rest = blanks ++ d :: rest ∧
      next c = (⟨(Lexeme.scan d rest).kind, String.ofList (Lexeme.scan d rest).literal, c.position.after blanks⟩,
        ⟨(blanks ++ d :: rest.take (Lexeme.scan d rest).tail).reverse ++ c.passed, rest.drop (Lexeme.scan d rest).tail,
          c.position.after (blanks ++ d :: rest.take (Lexeme.scan d rest).tail)⟩) := by
  obtain ⟨d, rest, hrest⟩ : ∃ d rest, c.rest.dropWhile isBlank = d :: rest := by
    refine List.exists_cons_of_ne_nil fun hn => h ?_
    unfold next
    simp only [advanceWhile_eq, hn]
  have hd : isBlank d = false := by
    have := List.head?_dropWhile_not isBlank c.rest
    rwa [hrest] at this
  refine ⟨c.rest.takeWhile isBlank, d, rest, fun b hb => List.mem_takeWhile_imp hb, hd, ?_, ?_⟩
  · rw [← hrest, List.takeWhile_append_dropWhile]
  · rw [next_of_rest ((rest_advanceWhile c isBlank).trans hrest)]
    simp [advanceWhile_eq, Cursor.skip, hrest, Position.after_append]

theorem tiles_allFrom (c : Cursor) (hc : c.Placed) : Tiles c.passed.reverse c.rest (allFrom c) := by
  induction c using allFrom.induct with
  | case1 c heof =>
    rw [allFrom, if_pos heof]
    exact .eof hc heof
  | case2 c heof ih =>
    rw [allFrom, if_neg heof]
    obtain ⟨blanks, d, rest, hblanks, -, hrest, hnext⟩ := exists_next heof
    have hplace : c.position = Position.start.after c.passed.reverse := hc
    have hsplit : c.rest = blanks ++ (d :: rest.take (Lexeme.scan d rest).tail) ++ rest.drop (Lexeme.scan d rest).tail := by
      rw [List.append_assoc, List.cons_append, List.take_append_drop, hrest]
    have htiles : Tiles (next c).2.passed.reverse (next c).2.rest (allFrom (next c).2) := by
      refine ih ?_
      rw [hnext]
      simp [Cursor.Placed, hplace, Position.after_append]
    rw [hsplit]
    refine .token hblanks heof ?_ ?_ ?_
    · rw [hnext]
      exact written_scan d rest _
    · rw [hnext, hplace, ← Position.after_append]
      exact Position.isBehind_after _
    · rw [hnext] at htiles ⊢
      simpa using htiles

-- Behind the end of the text there is nothing but the end of the text.
theorem next_next {c : Cursor} (h : (next c).1.kind = .eof) : next (next c).2 = next c := by
  have hdrop : c.rest.dropWhile isBlank = [] := List.dropWhile_eq_nil_iff.2 (rest_of_eof h)
  have hnext : next c = (⟨.eof, "", (c.advanceWhile isBlank).position⟩, c.advanceWhile isBlank) := by
    unfold next
    simp only [advanceWhile_eq, hdrop]
  rw [hnext]
  unfold next
  simp [advanceWhile_eq, hdrop]

theorem take_of_eof {c : Cursor} (h : (next c).1.kind = .eof) (count : Nat) :
    take count c = List.replicate count (next c).1 := by
  induction count generalizing c with
  | zero => rfl
  | succ count ih =>
    have hagain := next_next h
    have hrest := ih (c := (next c).2) (by rw [hagain]; exact h)
    rw [hagain] at hrest
    exact congrArg ((next c).1 :: ·) hrest

-- Asking for one token after the other.
theorem take_allFrom (c : Cursor) (count : Nat) :
    ∀ last ∈ (allFrom c).getLast?, take ((allFrom c).length + count) c = allFrom c ++ List.replicate count last := by
  induction c using allFrom.induct with
  | case1 c heof =>
    intro last hlast
    rw [allFrom, if_pos heof] at hlast ⊢
    obtain rfl : (next c).1 = last := by simpa using hlast
    rw [take_of_eof heof, List.length_singleton, Nat.add_comm, List.replicate_succ]
    rfl
  | case2 c heof ih =>
    intro last hlast
    rw [allFrom, if_neg heof] at hlast ⊢
    rw [List.getLast?_cons_of_ne_nil (allFrom_ne_nil _)] at hlast
    rw [List.length_cons, Nat.add_right_comm, take, List.cons_append, ← ih last hlast]

-- What the tokens of a text are to the text.
structure Tiled (source : String) (tokens : List Token) : Prop where
  tiles : Tiles [] source.toList tokens
  slices : ∀ t ∈ tokens, ∃ first last : source.Pos, first.offset.byteIdx = t.position.byte + t.kind.opening.length ∧
    String.extract first last = t.literal
  boundaries : ∀ count, String.Pos.Raw.IsValid source ⟨((Cursor.ofString source).skip count).position.byte⟩
  ending : ∀ last ∈ tokens.getLast?, ∀ count,
    take (tokens.length + count) (.ofString source) = tokens ++ List.replicate count last

theorem tokenize_tiled (source : String) : Tiled source (tokenize source) := by
  have htiles : Tiles [] source.toList (tokenize source) := tiles_allFrom _ (Cursor.placed_ofString source)
  exact {
    tiles := htiles
    slices := fun t ht => htiles.exists_extract (by simp) ht
    boundaries := Cursor.isValid_skip source
    ending := fun last hlast count => take_allFrom _ count last hlast }

end Token

end SolidScript
