import SolidScript.Proofs.Token.Tiling

namespace SolidScript

namespace Token

-- Blanks and comments. The line feed behind a comment belongs to it.
inductive Layout : List Char → Prop
  | nil : Layout []
  | blank {b : Char} {rest : List Char} : isBlank b → Layout rest → Layout (b :: rest)
  | comment {text rest : List Char} : '\n' ∉ text → Layout rest → Layout ('/' :: '/' :: text ++ '\n' :: rest)

-- Blanks and comments with a blank in front of each comment.
structure IsSpacing (gap : List Char) : Prop where
  layout : Layout gap
  apart : ∀ c ∈ gap.head?, isBlank c

theorem words_cons {c : Char} (hc : isBlank c = false) (rest : List Char) :
    words (c :: rest) = read [((Lexeme.scan c rest).kind, String.ofList (Lexeme.scan c rest).literal)] ++
      words (rest.drop (Lexeme.scan c rest).tail) := by
  rw [words_eq, List.dropWhile_cons_of_neg (by simp [hc])]

theorem words_blanks {blanks : List Char} (h : ∀ b ∈ blanks, isBlank b) (text : List Char) :
    words (blanks ++ text) = words text := by
  induction blanks with
  | nil => rfl
  | cons b blanks ih =>
    rw [List.cons_append, words_blank (h b (by simp)), ih fun d hd => h d (by simp [hd])]

namespace Lexeme

theorem comment_closed {text : List Char} (h : '\n' ∉ text) (rest : List Char) :
    comment (text ++ '\n' :: rest) = ⟨.comment, text, text.length + 1⟩ := by
  have hl : (text ++ '\n' :: rest).takeWhile (· != '\n') = text := by
    refine takeWhile_append_apart (fun c hc => ?_) (by simp)
    simpa using fun hn : c = '\n' => h (hn ▸ hc)
  rw [comment, hl]

end Lexeme

theorem words_comment {text : List Char} (h : '\n' ∉ text) (rest : List Char) :
    words ('/' :: '/' :: text ++ '\n' :: rest) = words rest := by
  have hs : Lexeme.scan '/' ('/' :: (text ++ '\n' :: rest)) = ⟨.comment, text, text.length + 1⟩ :=
    Lexeme.comment_closed h rest
  rw [List.cons_append, List.cons_append, words_cons rfl, hs]
  simp [read]

theorem words_layout {gap : List Char} (h : Layout gap) (rest : List Char) : words (gap ++ rest) = words rest := by
  induction h with
  | nil => rfl
  | blank hb _ ih => rw [List.cons_append, words_blank hb, ih]
  | comment ht _ ih =>
    rw [List.append_assoc]
    exact (words_comment ht _).trans ih

-- What can stand in the place of `rest` without becoming part of what is in front of it.
def Replaces (rest more : List Char) : Prop := ∀ d ∈ more.head?, d ∈ rest.head? ∨ isBlank d

theorem Replaces.append {rest more : List Char} (h : Replaces rest more) (run : List Char) :
    Replaces (run ++ rest) (run ++ more) := by
  cases run with
  | nil => exact h
  | cons c run => exact fun d hd => .inl hd

theorem Replaces.head {rest more : List Char} (h : Replaces rest more) {p : Char → Bool}
    (hblank : ∀ d, isBlank d → p d = false) (hrest : ∀ d ∈ rest.head?, p d = false) :
    ∀ d ∈ more.head?, p d = false := by
  intro d hd
  exact (h d hd).elim (hrest d) (hblank d)

-- The longest run at the start of a text for some rule that looks at one character behind the run.
structure Cuts (f : List Char → List Char) : Prop where
  isPrefix : ∀ text, f text <+: text
  stable : ∀ {run rest more : List Char}, f (run ++ rest) = run → Replaces rest more → f (run ++ more) = run

-- A run that has to start with an accepted character, and is empty otherwise.
def marked (accept : Char → Bool) (f : List Char → List Char) : List Char → List Char
  | c :: rest => if accept c then c :: f rest else []
  | [] => []

namespace Cuts

theorem takeWhile {p : Char → Bool} (hblank : ∀ d, isBlank d → p d = false) : Cuts (List.takeWhile p) where
  isPrefix _ := List.takeWhile_prefix p
  stable := by
    intro run rest more hrun hmore
    have hall : ∀ c ∈ run, p c := fun c hc => List.mem_takeWhile_imp (hrun ▸ hc)
    refine takeWhile_append_apart hall (hmore.head hblank fun d hd => ?_)
    rw [List.takeWhile_append_of_pos hall, List.append_right_eq_self] at hrun
    cases rest with
    | nil => cases hd
    | cons c rest =>
      cases hd
      by_contra hp
      rw [List.takeWhile_cons_of_pos (by simpa using hp)] at hrun
      cases hrun

-- One run and then another.
theorem seq {f g : List Char → List Char} (hf : Cuts f) (hg : Cuts g) :
    Cuts fun text => f text ++ g (text.drop (f text).length) where
  isPrefix text := Lexeme.isPrefix_append_drop (hf.isPrefix text) (hg.isPrefix _)
  stable := by
    intro run rest more hrun hmore
    generalize hfirst : f (run ++ rest) = first at hrun
    obtain ⟨second, rfl⟩ : first <+: run := ⟨_, hrun⟩
    rw [List.append_assoc] at hfirst ⊢
    rw [List.append_assoc, List.drop_left, List.append_right_inj] at hrun
    rw [hf.stable hfirst (hmore.append second), List.drop_left, hg.stable hrun hmore]

theorem nil : Cuts fun _ => [] where
  isPrefix _ := List.nil_prefix
  stable := fun hrun _ => hrun

theorem marked {accept : Char → Bool} {f : List Char → List Char} (hf : Cuts f)
    (hblank : ∀ d, isBlank d → accept d = false) : Cuts (marked accept f) where
  isPrefix text := by
    unfold Token.marked
    split
    · split
      · exact (List.prefix_cons_inj _).2 (hf.isPrefix _)
      · exact List.nil_prefix
    · exact List.nil_prefix
  stable := by
    intro run rest more hrun hmore
    cases run with
    | nil =>
      have hrest : ∀ d ∈ rest.head?, accept d = false := by
        intro d hd
        cases rest with
        | nil => cases hd
        | cons c rest =>
          cases hd
          by_contra ha
          simp [Token.marked, ha] at hrun
      cases more with
      | nil => rfl
      | cons d more => simp [Token.marked, hmore.head hblank hrest d rfl]
    | cons c run =>
      simp only [List.cons_append, Token.marked] at hrun ⊢
      split at hrun
      · rw [if_pos ‹_›, hf.stable (List.cons.inj hrun).2 hmore]
      · cases hrun

end Cuts

theorem isDigit_of_isBlank (d : Char) (h : isBlank d) : d.isDigit = false := by
  by_contra hd
  have hb := isBlank_of_isWordPart (isWordPart_of_isDigit (by simpa using hd : d.isDigit))
  rw [h] at hb
  cases hb

theorem isWordPart_of_isBlank (d : Char) (h : isBlank d) : isWordPart d = false := by
  by_contra hd
  have hb := isBlank_of_isWordPart (by simpa using hd : isWordPart d)
  rw [h] at hb
  cases hb

namespace Lexeme

theorem fraction_eq : fraction = marked (· == '.') (List.takeWhile Char.isDigit) := by
  funext text
  unfold fraction marked
  split
  · simp
  · rename_i hdot
    cases text with
    | nil => rfl
    | cons c rest =>
      have hc : c ≠ '.' := fun h => hdot rest (h ▸ rfl)
      simp [hc]

theorem exponentSign_eq : exponentSign = marked (fun c => c == '+' || c == '-') fun _ => [] := by
  funext text
  unfold exponentSign marked
  split
  · rfl
  · rfl
  · rename_i hplus hminus
    cases text with
    | nil => rfl
    | cons c rest =>
      have hp : c ≠ '+' := fun h => hplus rest (h ▸ rfl)
      have hm : c ≠ '-' := fun h => hminus rest (h ▸ rfl)
      simp [hp, hm]

theorem exponent_eq : exponent = marked (fun c => c == 'e' || c == 'E') fun text =>
    exponentSign text ++ (text.drop (exponentSign text).length).takeWhile Char.isDigit := by
  funext text
  cases text with
  | nil => rfl
  | cons c rest => simp [exponent, marked]

theorem cuts_digits : Cuts (List.takeWhile Char.isDigit) := .takeWhile isDigit_of_isBlank

theorem cuts_number : Cuts fun text => (number text).literal := by
  have hmark (marks : List Char) (h : marks.any isBlank = false) (d : Char) (hd : isBlank d) : d ∉ marks := by
    intro hm
    rw [List.any_eq_false] at h
    exact h d hm hd
  have hpoint : Cuts fraction := by
    rw [fraction_eq]
    refine cuts_digits.marked fun d hd => ?_
    simpa using hmark ['.'] rfl d hd
  have hsign : Cuts exponentSign := by
    rw [exponentSign_eq]
    refine Cuts.nil.marked fun d hd => ?_
    simpa using hmark ['+', '-'] rfl d hd
  have hpower : Cuts exponent := by
    rw [exponent_eq]
    refine (hsign.seq cuts_digits).marked fun d hd => ?_
    simpa using hmark ['e', 'E'] rfl d hd
  have h := (cuts_digits.seq hpoint).seq hpower
  simp only [List.length_append] at h
  exact h

theorem all_marked {accept : Char → Bool} (h : ∀ d, accept d → d.isDigit = false) (f : List Char → List Char)
    (text : List Char) : (marked accept f text).all Char.isDigit = (marked accept f text).isEmpty := by
  cases text with
  | nil => rfl
  | cons c rest =>
    by_cases hc : accept c
    · simp [marked, hc, h c hc]
    · simp [marked, hc]

-- The kind of a number can be seen from its text.
theorem kind_number (text : List Char) :
    (number text).kind = if (number text).literal.all Char.isDigit then .int else .float := by
  have hwhole : (text.takeWhile Char.isDigit).all Char.isDigit := List.all_eq_true.2 fun d hd => List.mem_takeWhile_imp hd
  have hpoint (rest : List Char) : (fraction rest).all Char.isDigit = (fraction rest).isEmpty := by
    rw [fraction_eq]
    exact all_marked (by simp [Char.isDigit]) _ rest
  have hpower (rest : List Char) : (exponent rest).all Char.isDigit = (exponent rest).isEmpty := by
    rw [exponent_eq]
    refine all_marked (fun d hd => ?_) _ rest
    simp only [Bool.or_eq_true, beq_iff_eq] at hd
    rcases hd with rfl | rfl <;> rfl
  simp only [number, List.all_append, hwhole, hpoint, hpower, Bool.true_and]

theorem number_eq {text other : List Char} (h : (number text).literal = (number other).literal) :
    number text = number other := by
  have hk : (number text).kind = (number other).kind := by rw [kind_number, kind_number, h]
  have ht : (number text).tail = (number other).tail := congrArg (fun l => l.length - 1) h
  cases hn : number text
  cases ho : number other
  simp_all

-- A sign that could be the first half of a longer one.
theorem scan_half {c second : Char} {rest more : List Char} (hc : (c, second) ∈ [('=', '='), ('!', '='), ('/', '/')])
    (hrest : ∀ tail, rest = second :: tail → False) (hm : Replaces rest more) : scan c more = scan c [] := by
  cases more with
  | nil => rfl
  | cons d more =>
    have hd : d ≠ second := by
      rintro rfl
      rcases hm d rfl with hr | hb
      · obtain ⟨tail, rfl⟩ := List.head?_eq_some_iff.1 hr
        exact hrest tail rfl
      · simp only [List.mem_cons, Prod.mk.injEq, List.not_mem_nil, or_false] at hc
        rcases hc with ⟨-, rfl⟩ | ⟨-, rfl⟩ | ⟨-, rfl⟩ <;> cases hb
    simp only [List.mem_cons, Prod.mk.injEq, List.not_mem_nil, or_false] at hc
    rcases hc with ⟨rfl, rfl⟩ | ⟨rfl, rfl⟩ | ⟨rfl, rfl⟩ <;> unfold scan <;> split <;> simp_all

theorem string_closed {text : List Char} (h : '"' ∉ text) (rest : List Char) :
    string (text ++ '"' :: rest) = ⟨.string, text, text.length + 1⟩ := by
  have hl : (text ++ '"' :: rest).takeWhile (· != '"') = text := by
    refine takeWhile_append_apart (fun c hc => ?_) (by simp)
    simpa using fun hq : c = '"' => h (hq ▸ hc)
  simp only [string, hl, List.length_append, List.length_cons, mk.injEq, true_and]
  omega

variable {c : Char} {raw rest more : List Char}

theorem string_replaced (h : (string (raw ++ rest)).tail = raw.length) (hne : rest ≠ []) :
    string (raw ++ more) = string (raw ++ rest) := by
  have hcut := take_tail_string (raw ++ rest)
  rw [h, List.take_left, List.drop_left] at hcut
  have hquote : '"' ∉ (string (raw ++ rest)).literal := fun hq => by
    simpa using List.mem_takeWhile_imp (p := (· != '"')) hq
  generalize (string (raw ++ rest)).literal = literal at hcut hquote
  obtain rfl := hcut.resolve_right fun hr => hne hr.2
  simp only [List.append_assoc, List.singleton_append, string_closed hquote]

theorem comment_replaced (h : (comment (raw ++ rest)).tail = raw.length + 1) (hne : rest ≠ [])
    (hn : '\n' ∈ rest.head? → '\n' ∈ more.head?) : comment (raw ++ more) = comment (raw ++ rest) := by
  have hlength : ((raw ++ rest).takeWhile (· != '\n')).length = raw.length := Nat.succ.inj h
  have hcut := List.prefix_iff_eq_take.1 (List.takeWhile_prefix (· != '\n') (l := raw ++ rest))
  rw [hlength, List.take_left] at hcut
  have hline : '\n' ∉ raw := fun hm => by
    rw [← hcut] at hm
    simpa using List.mem_takeWhile_imp hm
  obtain ⟨d, rest, rfl⟩ := List.exists_cons_of_ne_nil hne
  -- the comment would go on with any other character
  have hd : d = '\n' := by
    by_contra hd
    have hall : ∀ c ∈ raw, (c != '\n') = true := fun c hc => by simpa using fun hn : c = '\n' => hline (hn ▸ hc)
    rw [List.takeWhile_append_of_pos hall, List.takeWhile_cons_of_pos (by simpa using hd), List.append_right_eq_self] at hcut
    cases hcut
  subst hd
  obtain ⟨more, rfl⟩ := List.head?_eq_some_iff.1 (hn rfl)
  rw [comment_closed hline, comment_closed hline]

-- A token is cut off in the same way in front of another rest that does not go on with it. A comment goes on up to the
-- end of its line.
theorem scan_replaced (h : (scan c (raw ++ rest)).tail = raw.length) (hne : rest ≠ []) (hm : Replaces rest more)
    (hn : '\n' ∈ rest.head? → '\n' ∈ more.head?) : scan c (raw ++ more) = scan c (raw ++ rest) := by
  by_cases hd : c.isDigit
  · have hl := take_tail_number hd (raw ++ rest)
    rw [← scan_number hd, h, List.take_left, scan_number hd] at hl
    rw [scan_number hd, scan_number hd]
    have hcut : (number (c :: raw ++ rest)).literal = c :: raw := hl.symm
    exact number_eq ((cuts_number.stable hcut hm).trans hl)
  by_cases hw : isWordStart c
  · have hl := take_tail_word hw (raw ++ rest)
    rw [← scan_word hw, h, List.take_left, scan_word hw] at hl
    have hcut : (c :: raw ++ rest).takeWhile isWordPart = c :: raw := hl.symm
    have hmore := (Cuts.takeWhile isWordPart_of_isBlank).stable hcut hm
    rw [scan_word hw, scan_word hw, ← List.cons_append, ← List.cons_append, word, hmore, word, hcut]
  generalize hl : scan c (raw ++ rest) = l at h ⊢
  unfold scan at hl
  split at hl
  case h_15 hrest | h_17 hrest =>
    obtain ⟨d, rfl⟩ := List.length_eq_one_iff.1 (hl ▸ h).symm
    obtain ⟨rfl, -⟩ := List.cons.inj hrest
    exact hl
  case h_16 hrest | h_18 hrest | h_20 hrest =>
    obtain rfl := List.length_eq_zero_iff.1 (hl ▸ h).symm
    exact (scan_half (by simp) hrest hm).trans hl
  case h_19 text hrest =>
    cases raw with
    | nil =>
      rw [← hl] at h
      cases h
    | cons d raw =>
      obtain ⟨rfl, rfl⟩ := List.cons.inj hrest
      rw [← hl] at h ⊢
      exact comment_replaced h hne hn
  case h_21 => exact (string_replaced (hl ▸ h) hne).trans hl
  case h_22 =>
    rw [if_neg hd, if_neg hw] at hl
    obtain rfl := List.length_eq_zero_iff.1 (hl ▸ h).symm
    rw [← hl]
    unfold scan
    split <;> simp_all
  all_goals
    obtain rfl := List.length_eq_zero_iff.1 (hl ▸ h).symm
    exact hl

end Lexeme

-- Where tokens start: a text is cut between `front` and `behind`, and the cut is in front of a token.
inductive Starts : (front behind : List Char) → Prop
  | here {blanks rest : List Char} {c : Char} : (∀ b ∈ blanks, isBlank b) → isBlank c = false → Starts blanks (c :: rest)
  | later {blanks raw front behind : List Char} {c : Char} : (∀ b ∈ blanks, isBlank b) → isBlank c = false →
      (Lexeme.scan c (raw ++ (front ++ behind))).tail = raw.length → Starts front behind →
      Starts (blanks ++ c :: raw ++ front) behind

theorem Starts.head {front behind : List Char} (h : Starts front behind) :
    ∃ c rest, behind = c :: rest ∧ isBlank c = false := by
  induction h with
  | here _ hc => exact ⟨_, _, rfl, hc⟩
  | later _ _ _ _ ih => exact ih

theorem exists_starts {c : Cursor} {t : Token} (ht : t ∈ allFrom c) (hk : t.kind ≠ .eof) :
    ∃ front behind, c.rest = front ++ behind ∧ t.position = c.position.after front ∧ Starts front behind := by
  induction c using allFrom.induct with
  | case1 c heof =>
    rw [allFrom, if_pos heof] at ht
    exact absurd (List.mem_singleton.1 ht ▸ heof) hk
  | case2 c heof ih =>
    rw [allFrom, if_neg heof] at ht
    obtain ⟨blanks, d, rest, hblanks, hd, hrest, hnext⟩ := exists_next heof
    rcases List.mem_cons.1 ht with rfl | ht
    · exact ⟨blanks, d :: rest, hrest, by rw [hnext], .here hblanks hd⟩
    · obtain ⟨front, behind, hsplit, hposition, hstarts⟩ := ih ht
      rw [hnext] at hsplit hposition
      have hcut : rest = rest.take (Lexeme.scan d rest).tail ++ (front ++ behind) := by
        rw [← hsplit, List.take_append_drop]
      refine ⟨blanks ++ d :: rest.take (Lexeme.scan d rest).tail ++ front, behind, ?_, ?_, .later hblanks hd ?_ hstarts⟩
      · rw [hrest, List.append_assoc, List.append_assoc, List.cons_append, ← hcut]
      · rw [hposition, ← Position.after_append]
      · rw [← hcut, List.length_take_of_le (Lexeme.tail_scan_le d rest)]

-- Blanks and comments in front of a token are not seen by the parser.
theorem words_spaced {front behind gap : List Char} (h : Starts front behind) (hg : IsSpacing gap) :
    words (front ++ gap ++ behind) = words (front ++ behind) := by
  induction h with
  | here hblanks hc => rw [List.append_assoc, words_blanks hblanks, words_layout hg.layout, words_blanks hblanks]
  | @later blanks raw front behind c hblanks hc htail hstarts ih =>
    obtain ⟨d, rest, rfl, hd⟩ := hstarts.head
    have hm : Replaces (front ++ d :: rest) (front ++ gap ++ d :: rest) := by
      rw [List.append_assoc]
      refine Replaces.append (fun e he => ?_) front
      cases gap with
      | nil => exact .inl he
      | cons b gap => exact .inr (hg.apart e he)
    have hn : '\n' ∈ (front ++ d :: rest).head? → '\n' ∈ (front ++ gap ++ d :: rest).head? := by
      cases front with
      | nil =>
        intro hl
        cases hl
        cases hd
      | cons e front => exact id
    have hscan := Lexeme.scan_replaced htail (by simp) hm hn
    simp only [List.append_assoc] at ih hscan ⊢
    simp only [List.cons_append]
    rw [words_blanks hblanks, words_blanks hblanks, words_cons hc, words_cons hc, hscan, htail, List.drop_left,
      List.drop_left, ih]

end Token

end SolidScript
