namespace SolidScript

structure Position where
  byte : Nat
  line : Nat
  column : Nat
deriving Repr, DecidableEq, Inhabited

namespace Position

-- The place of the first character.
def start : Position := ⟨0, 1, 1⟩

-- The place right behind a character that stands at `p`.
def next (p : Position) (c : Char) : Position :=
  if c = '\n' then ⟨p.byte + c.utf8Size, p.line + 1, 1⟩
  else ⟨p.byte + c.utf8Size, p.line, p.column + 1⟩

-- The place right behind a run of characters that starts at `p`.
def after (p : Position) (run : List Char) : Position :=
  run.foldl next p

-- How a place is shown in a message.
def shown (p : Position) : String :=
  "line " ++ toString p.line ++ ", column " ++ toString p.column

@[simp] theorem after_nil (p : Position) : p.after [] = p := rfl

@[simp] theorem after_cons (p : Position) (c : Char) (run : List Char) :
    p.after (c :: run) = (p.next c).after run := rfl

theorem after_append (p : Position) (run more : List Char) :
    p.after (run ++ more) = (p.after run).after more :=
  List.foldl_append

end Position

-- `passed` holds the characters on the left, the nearest one first.
structure Cursor where
  passed : List Char
  rest : List Char
  position : Position
deriving Repr

namespace Cursor

def ofString (source : String) : Cursor := ⟨[], source.toList, .start⟩

-- The whole text, on either side of the cursor.
def text (c : Cursor) : List Char := c.passed.reverse ++ c.rest

-- The next character, if the text has one more.
def peek? (c : Cursor) : Option Char := c.rest.head?

-- Passes the next `count` characters, or all of them if there are fewer.
def skip (c : Cursor) (count : Nat) : Cursor where
  passed := (c.rest.take count).reverse ++ c.passed
  rest := c.rest.drop count
  position := c.position.after (c.rest.take count)

-- Passes one character. At the end of the text nothing moves.
def advance (c : Cursor) : Cursor := c.skip 1

-- The longest run of accepted characters at the cursor.
def run (c : Cursor) (accept : Char → Bool) : List Char := c.rest.takeWhile accept

-- Passes the longest run of accepted characters.
def advanceWhile (c : Cursor) (accept : Char → Bool) : Cursor := c.skip (c.run accept).length

-- What is left of `chars` behind its first `bytes` bytes.
def dropBytes : Nat → List Char → List Char
  | _, [] => []
  | bytes, c :: chars => if bytes = 0 then c :: chars else dropBytes (bytes - c.utf8Size) chars

-- The text between a byte offset and the cursor.
def sliceFrom (c : Cursor) (start : Nat) : String :=
  String.ofList (dropBytes start c.passed.reverse)

@[simp] theorem text_ofString (source : String) : (ofString source).text = source.toList := rfl

-- No movement loses or adds a character.
@[simp] theorem text_skip (c : Cursor) (count : Nat) : (c.skip count).text = c.text := by
  simp [text, skip]

-- A cursor whose place is the one behind the text on its left.
def Placed (c : Cursor) : Prop := c.position = Position.start.after c.passed.reverse

theorem placed_ofString (source : String) : (ofString source).Placed := rfl

theorem Placed.skip {c : Cursor} (h : c.Placed) (count : Nat) : (c.skip count).Placed := by
  simp [Placed, Cursor.skip, Position.after_append, h.symm]

end Cursor

end SolidScript
