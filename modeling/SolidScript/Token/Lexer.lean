import SolidScript.Token

namespace SolidScript

namespace Token

def isBlank (c : Char) : Bool := c == ' ' || c == '\t' || c == '\r' || c == '\n'

-- Letters, the underscore and the dollar sign of special variables.
def isWordStart (c : Char) : Bool := c.isAlpha || c == '_' || c == '$'

def isWordPart (c : Char) : Bool := isWordStart c || c.isDigit

-- A token without its place. Its raw text is one character and `tail` more.
structure Lexeme where
  kind : Kind
  literal : List Char
  tail : Nat
deriving Repr

namespace Lexeme

-- The part of a number from its point on.
def fraction : List Char → List Char
  | '.' :: rest => '.' :: rest.takeWhile Char.isDigit
  | _ => []

-- The sign that may stand right behind the mark of an exponent.
def exponentSign : List Char → List Char
  | '+' :: _ => ['+']
  | '-' :: _ => ['-']
  | _ => []

-- The part of a number from the mark of its exponent on.
def exponent : List Char → List Char
  | c :: rest =>
    if c = 'e' ∨ c = 'E' then
      let sign := exponentSign rest
      c :: sign ++ (rest.drop sign.length).takeWhile Char.isDigit
    else []
  | [] => []

-- Digits, then a fraction, then an exponent. With one of the last two the number is a float.
def number (text : List Char) : Lexeme :=
  let whole := text.takeWhile Char.isDigit
  let point := fraction (text.drop whole.length)
  let power := exponent (text.drop (whole.length + point.length))
  let kind := if point.isEmpty && power.isEmpty then Kind.int else Kind.float
  let literal := whole ++ point ++ power
  ⟨kind, literal, literal.length - 1⟩

-- A string runs to the next quote, or to the end of the text if there is none. It has no escapes.
def string (text : List Char) : Lexeme :=
  let literal := text.takeWhile (· != '"')
  ⟨.string, literal, min (literal.length + 1) text.length⟩

-- A comment runs to the end of its line.
def comment (text : List Char) : Lexeme :=
  let literal := text.takeWhile (· != '\n')
  ⟨.comment, literal, literal.length + 1⟩

def word (text : List Char) : Lexeme :=
  let literal := text.takeWhile isWordPart
  ⟨.ofWord (String.ofList literal), literal, literal.length - 1⟩

def single (kind : Kind) (c : Char) : Lexeme := ⟨kind, [c], 0⟩

-- The token that starts with `c` and goes on in `rest`.
def scan (c : Char) (rest : List Char) : Lexeme :=
  match c, rest with
  | '(', _ => single .lparen c
  | ')', _ => single .rparen c
  | '[', _ => single .lbracket c
  | ']', _ => single .rbracket c
  | '\x7b', _ => single .lbrace c
  | '\x7d', _ => single .rbrace c
  | ';', _ => single .semicolon c
  | ',', _ => single .comma c
  | ':', _ => single .colon c
  | '+', _ => single .plus c
  | '-', _ => single .minus c
  | '*', _ => single .asterisk c
  | '<', _ => single .lt c
  | '>', _ => single .gt c
  | '=', '=' :: _ => ⟨.eq, ['=', '='], 1⟩
  | '=', _ => single .assign c
  | '!', '=' :: _ => ⟨.notEq, ['!', '='], 1⟩
  | '!', _ => single .bang c
  | '/', '/' :: text => comment text
  | '/', _ => single .slash c
  | '"', text => string text
  | c, rest =>
    if c.isDigit then number (c :: rest)
    else if isWordStart c then word (c :: rest)
    else single .illegal c

end Lexeme

-- The next token and the cursor behind it.
def next (cursor : Cursor) : Token × Cursor :=
  let cursor := cursor.advanceWhile isBlank
  match cursor.rest with
  | [] => (⟨.eof, "", cursor.position⟩, cursor)
  | c :: rest =>
    let lexeme := Lexeme.scan c rest
    (⟨lexeme.kind, String.ofList lexeme.literal, cursor.position⟩, cursor.skip (lexeme.tail + 1))

-- Behind a token that is not the end of the text there is less text left.
theorem length_rest_next_lt {cursor : Cursor} (h : (next cursor).1.kind ≠ .eof) :
    (next cursor).2.rest.length < cursor.rest.length := by
  unfold next at h ⊢
  simp only at h ⊢
  split at h
  · simp at h
  · rename_i c rest hrest
    have hle : (cursor.advanceWhile isBlank).rest.length ≤ cursor.rest.length := by
      simp [Cursor.advanceWhile, Cursor.skip]
    rw [hrest] at hle
    simp only [hrest, Cursor.skip, List.length_drop, List.length_cons] at hle ⊢
    omega

-- All tokens from the cursor on, the last of them the end of the text.
def allFrom (cursor : Cursor) : List Token :=
  if (next cursor).1.kind = .eof then [(next cursor).1]
  else (next cursor).1 :: allFrom (next cursor).2
termination_by cursor.rest.length
decreasing_by exact length_rest_next_lt ‹_›

def tokenize (source : String) : List Token := allFrom (.ofString source)

-- The first `count` tokens, where the end of the text repeats.
def take : Nat → Cursor → List Token
  | 0, _ => []
  | count + 1, cursor =>
    let (token, after) := next cursor
    token :: take count after

end Token

end SolidScript
