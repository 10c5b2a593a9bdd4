import SolidScript.Proofs.Token.Words
import SolidScript.Proofs.Tree.Shape

namespace SolidScript

namespace Token

-- What is known of the text of a token from its kind.
def Sound (w : Word) : Prop :=
  match w.1 with
  | .ident => isName w.2
  | .primitive p => w.2 = p.keyword
  | .string => w.2.toList.all (· != '"')
  | .float => ∃ c ∈ w.2.toList.head?, c.isDigit
  | _ => True

theorem isWord_takeWhile {c : Char} (hc : isWordStart c) (rest : List Char) :
    isWord (String.ofList ((c :: rest).takeWhile isWordPart)) := by
  rw [List.takeWhile_cons_of_pos (isWordPart_of_isWordStart hc)]
  simp only [isWord, String.toList_ofList, Bool.and_eq_true, List.all_eq_true]
  exact ⟨hc, fun d hd => List.mem_takeWhile_imp hd⟩

theorem ofWord_eq_primitive {word : String} {p : Primitive} (h : Kind.ofWord word = .primitive p) :
    word = p.keyword := by
  unfold Kind.ofWord at h
  split at h
  case h_9 =>
    split at h
    · rename_i q hq
      simp only [Kind.primitive.injEq] at h
      rw [← h, Primitive.keyword_of_ofKeyword? hq]
    · simp at h
  all_goals simp at h

theorem sound_word {word : String} (h : isWord word) : Sound (.ofWord word, word) := by
  cases hk : Kind.ofWord word with
  | ident => simp [Sound, isName, h, hk]
  | primitive p => exact ofWord_eq_primitive hk
  | string => exact absurd hk (Kind.ofWord_ne (by simp))
  | float => exact absurd hk (Kind.ofWord_ne (by simp))
  | _ => trivial

theorem sound_number {c : Char} (hc : c.isDigit) (rest : List Char) :
    Sound ((Lexeme.number (c :: rest)).kind, String.ofList (Lexeme.number (c :: rest)).literal) := by
  have hf : ∃ d ∈ (String.ofList (Lexeme.number (c :: rest)).literal).toList.head?, d.isDigit := by
    refine ⟨c, ?_, hc⟩
    simp [Lexeme.number, List.takeWhile_cons_of_pos hc]
  have hk : (Lexeme.number (c :: rest)).kind = .int ∨ (Lexeme.number (c :: rest)).kind = .float := by
    unfold Lexeme.number
    dsimp only
    split
    · exact .inl rfl
    · exact .inr rfl
  rcases hk with hk | hk <;> rw [hk]
  · trivial
  · exact hf

theorem sound_string (text : List Char) :
    Sound ((Lexeme.string text).kind, String.ofList (Lexeme.string text).literal) := by
  simp only [Sound, Lexeme.string, String.toList_ofList, List.all_eq_true]
  exact fun c hc => List.mem_takeWhile_imp (p := (· != '"')) hc

theorem sound_scan (c : Char) (rest : List Char) :
    Sound ((Lexeme.scan c rest).kind, String.ofList (Lexeme.scan c rest).literal) := by
  unfold Lexeme.scan
  split
  case h_21 => exact sound_string _
  case h_22 =>
    split
    · exact sound_number ‹_› _
    · split
      · exact sound_word (isWord_takeWhile ‹_› _)
      · trivial
  all_goals trivial

theorem sound_next (cursor : Cursor) : Sound (next cursor).1.word := by
  unfold next
  dsimp only
  split
  · trivial
  · exact sound_scan _ _

theorem sound_allFrom (cursor : Cursor) : ∀ t ∈ allFrom cursor, Sound t.word := by
  induction cursor using allFrom.induct with
  | case1 cursor h =>
    rw [allFrom, if_pos h]
    simpa using sound_next cursor
  | case2 cursor h ih =>
    rw [allFrom, if_neg h]
    simpa using ⟨sound_next cursor, ih⟩

end Token

end SolidScript
